import TypedClient.Proofs.Script.Form
import TypedClient.Proofs.Script.Token

/-!
# Reading types of the generated script

A type is a union of intersections of operands, and brackets behind an operand make it the type of
arrays of it: `[]` binds tighter than `&`, and `&` tighter than `|`.  An operand is a name, a name
with an argument, a literal, an object type, or a type in parentheses.

The tokens of a type are read from left to right.  What has been read of the type at hand is a
level: the complete members of the union, the complete factors of the last member, and the last
operand.  A type inside another one waits for the sign that ends it on a level of its own, and the
levels around it are kept on a stack.

* `State`, `State.next?`, `readTokens?`: the reader.
* `ReadsOperand`, `ReadsFactors`, `ReadsMembers`: tokens are read as an operand, as an intersection,
  as a union, wherever one may stand.
* `ReadsFactors.and`, `ReadsMembers.or`, `ReadsMembers.group`, `ReadsOperand.array`,
  `ReadsProperties.object`: how they are put together.

Of the words, those that stand for an operator on types or for no type at all are not read as names.
-/

namespace TypedClient.Script

/-! ## The reader -/

/-- The words that stand for a type, but for no part of a longer name. -/
def constants : List String := ["null", "true", "false", "void", "this"]

/-- The words that no type begins with, and those of the operators on types. -/
def keywords : List String :=
  ["keyof", "unique", "readonly", "infer", "typeof", "new", "import", "function", "break", "case",
    "catch", "class", "const", "continue", "debugger", "default", "delete", "do", "else", "enum",
    "export", "extends", "finally", "for", "if", "in", "instanceof", "return", "super", "switch",
    "throw", "try", "var", "while", "with"]

/-- What has been read of an operand.  Behind a minus a numeral is missing, behind a point a word,
and behind the first of two brackets the second. -/
inductive Operand where
  | missing
  | minus
  | name (path : List String)
  | point (path : List String)
  | bracket (form : Form)
  | done (form : Form)

/-- The type that an operand is, if it may end here. -/
def Operand.form? : Operand → Option Form
  | .name path => some (.name path)
  | .done form => some form
  | _ => none

/-- The operand that begins with a word. -/
def Operand.ofWord? (word : String) : Option Operand :=
  if word ∈ constants then some (.done (.name [word]))
  else if word ∈ keywords then none
  else some (.name [word])

/-- An operand with one more token. -/
def Operand.next? : Operand → Token → Option Operand
  | .missing, .word word => Operand.ofWord? word
  | .missing, .text value => some (.done (.text value))
  | .missing, .whole value => some (.done (.whole value))
  | .missing, .sign .minus => some .minus
  | .minus, .whole value => some (.done (.whole (-value)))
  | .name path, .sign .point => some (.point path)
  | .point path, .word word => some (.name (path ++ [word]))
  | .bracket form, .sign .closeBracket => some (.done (.array form))
  | operand, .sign .openBracket => operand.form?.map .bracket
  | _, _ => none

/-- What has been read of a type: the members of the union, the factors of the last member, and the
last operand. -/
structure Level where
  members : List Form
  factors : List Form
  operand : Operand

/-- Nothing has been read. -/
def Level.start : Level := ⟨[], [], .missing⟩

/-- The factors of the last member, if it may end here. -/
def Level.factors? (level : Level) : Option (List Form) :=
  level.operand.form?.map fun form => level.factors ++ [form]

/-- The members of the union, if it may end here. -/
def Level.members? (level : Level) : Option (List Form) :=
  level.factors?.map fun factors => level.members ++ [.combine .intersection factors]

/-- The type, if it may end here. -/
def Level.form? (level : Level) : Option Form :=
  level.members?.map (.combine .union)

/-- The level with another operand. -/
def Level.withOperand (level : Level) (operand : Operand) : Level :=
  ⟨level.members, level.factors, operand⟩

/-- A level with one more token. -/
def Level.next? (level : Level) : Token → Option Level
  | .sign .ampersand => level.factors?.map fun factors => ⟨level.members, factors, .missing⟩
  | .sign .bar => level.members?.map fun members => ⟨members, [], .missing⟩
  | token => (level.operand.next? token).map level.withOperand

/-- What has been read of an object type. -/
structure Body where
  properties : List (Property Form)
  index : Option Form

/-- The object type with one more property. -/
def Body.push (body : Body) (property : Property Form) : Body :=
  ⟨body.properties ++ [property], body.index⟩

/-- What has been read of an entry of an object type: of a property, or of an index signature. -/
inductive Entry where
  | start
  | readOnly
  | key (name : String) (isReadOnly isOptional : Bool)
  | bracket
  | label
  | labelled
  | keyed
  | closed

/-- Where a type stands in another one: in parentheses, as the argument of a name, or as the type of
an entry. -/
inductive Frame where
  | group (level : Level)
  | argument (level : Level) (path : List String)
  | property (level : Level) (body : Body) (name : String) (isReadOnly isOptional : Bool)
  | index (level : Level) (body : Body)

/-- The sign that ends a type. -/
def Frame.closing : Frame → Sign
  | .group _ => .closeGroup
  | .argument _ _ => .greater
  | .property _ _ _ _ _ => .semicolon
  | .index _ _ => .semicolon

/-- The reader: in a type, or in an entry of an object type, with what is around it. -/
inductive State where
  | type (stack : List Frame) (level : Level)
  | entry (stack : List Frame) (level : Level) (body : Body) (begun : Entry)

/-- The reader behind a type that stands in another one. -/
def Frame.resume (stack : List Frame) (form : Form) : Frame → State
  | .group level => .type stack (level.withOperand (.done form))
  | .argument level path => .type stack (level.withOperand (.done (.apply path form)))
  | .property level body name isReadOnly isOptional =>
    .entry stack level (body.push ⟨name, isReadOnly, isOptional, form⟩) .start
  | .index level body => .entry stack level ⟨body.properties, some form⟩ .start

/-- The reader behind a sign that ends a type. -/
def Level.close? (level : Level) (sign : Sign) : List Frame → Option State
  | [] => none
  | frame :: stack =>
    if frame.closing = sign then level.form?.map fun form => frame.resume stack form else none

/-- The reader in a type, with one more token. -/
def Level.step? (stack : List Frame) (level : Level) : Token → Option State
  | .sign .openGroup =>
    match level.operand with
    | .missing => some (.type (.group level :: stack) .start)
    | _ => none
  | .sign .less =>
    match level.operand with
    | .name path => some (.type (.argument level path :: stack) .start)
    | _ => none
  | .sign .openBrace =>
    match level.operand with
    | .missing => some (.entry stack level ⟨[], none⟩ .start)
    | _ => none
  | .sign .closeGroup => level.close? .closeGroup stack
  | .sign .greater => level.close? .greater stack
  | .sign .semicolon => level.close? .semicolon stack
  | token => (level.next? token).map (.type stack)

/-- The reader in an entry, with one more token.  An object type has one index signature at most. -/
def Entry.step? (stack : List Frame) (level : Level) (body : Body) :
    Entry → Token → Option State
  | .start, .word word =>
    if word = "readonly" then some (.entry stack level body .readOnly) else none
  | .start, .text name => some (.entry stack level body (.key name false false))
  | .readOnly, .text name => some (.entry stack level body (.key name true false))
  | .key name isReadOnly false, .sign .question =>
    some (.entry stack level body (.key name isReadOnly true))
  | .key name isReadOnly isOptional, .sign .colon =>
    some (.type (.property level body name isReadOnly isOptional :: stack) .start)
  | .start, .sign .openBracket =>
    if body.index.isNone then some (.entry stack level body .bracket) else none
  | .bracket, .word _ => some (.entry stack level body .label)
  | .label, .sign .colon => some (.entry stack level body .labelled)
  | .labelled, .word word =>
    if word = "string" then some (.entry stack level body .keyed) else none
  | .keyed, .sign .closeBracket => some (.entry stack level body .closed)
  | .closed, .sign .colon => some (.type (.index level body :: stack) .start)
  | .start, .sign .closeBrace =>
    some (.type stack (level.withOperand (.done (.object body.properties body.index))))
  | _, _ => none

/-- The reader with one more token. -/
def State.next? : State → Token → Option State
  | .type stack level, token => level.step? stack token
  | .entry stack level body begun, token => begun.step? stack level body token

/-- The reader behind some tokens. -/
def run? (state : State) (tokens : List Token) : Option State :=
  tokens.foldlM State.next? state

/-- The type that the reader has read, if nothing is open. -/
def State.form? : State → Option Form
  | .type [] level => level.form?
  | _ => none

/-- The type that some tokens are. -/
def readTokens? (tokens : List Token) : Option Form :=
  (run? (.type [] .start) tokens).bind State.form?

/-- The type that a text is. -/
def readType? (isLetter : Char → Bool) (text : List Char) : Option Form :=
  (tokens? isLetter text).bind readTokens?

/-! ## What tokens are read as -/

variable {state next last : State} {stack : List Frame} {level : Level} {body : Body}
  {ts us : List Token} {token : Token} {form other : Form}

theorem run?_cons (h : state.next? token = some next) :
    run? state (token :: ts) = run? next ts := by
  rw [run?, List.foldlM_cons, h]
  rfl

theorem run?_append (h : run? state ts = some next) : run? state (ts ++ us) = run? next us := by
  rw [run?, List.foldlM_append]
  rw [run?] at h
  rw [h]
  rfl

/-- The tokens are read as an operand wherever one is missing. -/
def ReadsOperand (tokens : List Token) (form : Form) : Prop :=
  ∀ stack members factors, ∃ operand : Operand,
    run? (.type stack ⟨members, factors, .missing⟩) tokens =
      some (.type stack ⟨members, factors, operand⟩) ∧ operand.form? = some form

/-- The tokens are read as factors of an intersection wherever an operand is missing: as those of
the type. -/
def ReadsFactors (tokens : List Token) (form : Form) : Prop :=
  ∀ stack members factors, ∃ (level : Level) (read : List Form),
    run? (.type stack ⟨members, factors, .missing⟩) tokens = some (.type stack level) ∧
      level.members = members ∧ level.factors? = some read ∧
      read.flatMap (Form.operands .intersection) =
        factors.flatMap (Form.operands .intersection) ++ form.operands .intersection

/-- The tokens are read as members of a union wherever one is missing: as those of the type. -/
def ReadsMembers (tokens : List Token) (form : Form) : Prop :=
  ∀ stack members, ∃ (level : Level) (read : List Form),
    run? (.type stack ⟨members, [], .missing⟩) tokens = some (.type stack level) ∧
      level.members? = some read ∧
      read.flatMap (Form.operands .union) =
        members.flatMap (Form.operands .union) ++ form.operands .union

/-! ## Unions and intersections -/

/-- An operand is an intersection. -/
theorem ReadsOperand.factors (h : ReadsOperand ts form) : ReadsFactors ts form := by
  intro stack members factors
  obtain ⟨operand, hrun, hform⟩ := h stack members factors
  refine ⟨_, factors ++ [form], hrun, rfl, ?_, ?_⟩
  · rw [Level.factors?, hform, Option.map_some]
  · rw [List.flatMap_append, List.flatMap_singleton]

/-- An intersection is a union. -/
theorem ReadsFactors.members (h : ReadsFactors ts form) (hnormal : form.Normal) :
    ReadsMembers ts form := by
  intro stack members
  obtain ⟨level, read, hrun, rfl, hread, hfactors⟩ := h stack members []
  have hform : Form.combine .intersection read = form := by
    rw [← Form.combine_singleton .intersection hnormal]
    refine Form.combine_congr ?_
    rw [hfactors, List.flatMap_nil, List.nil_append, List.flatMap_singleton]
  refine ⟨level, level.members ++ [form], hrun, ?_, ?_⟩
  · rw [Level.members?, hread, Option.map_some, hform]
  · rw [List.flatMap_append, List.flatMap_singleton]

/-- Two intersections with `&` between them are the intersection of both. -/
theorem ReadsFactors.and (hts : ReadsFactors ts form) (hus : ReadsFactors us other)
    (hform : form.Normal) (hother : other.Normal) :
    ReadsFactors (ts ++ .sign .ampersand :: us) (.combine .intersection [form, other]) := by
  intro stack members factors
  obtain ⟨level, read, hrun, rfl, hread, hfactors⟩ := hts stack members factors
  obtain ⟨level', read', hrun', hmembers', hread', hfactors'⟩ := hus stack level.members read
  have hnext : State.next? (.type stack level) (.sign .ampersand) =
      some (.type stack ⟨level.members, read, .missing⟩) := by
    show (level.next? (.sign .ampersand)).map (State.type stack) = _
    rw [Level.next?, hread, Option.map_some, Option.map_some]
  refine ⟨level', read', ?_, hmembers', hread', ?_⟩
  · rw [run?_append hrun, run?_cons hnext, hrun']
  · rw [hfactors', hfactors, Form.operands_combine (by simp [hform, hother]), List.flatMap_cons,
      List.flatMap_singleton, List.append_assoc]

/-- Two unions with `|` between them are the union of both. -/
theorem ReadsMembers.or (hts : ReadsMembers ts form) (hus : ReadsMembers us other)
    (hform : form.Normal) (hother : other.Normal) :
    ReadsMembers (ts ++ .sign .bar :: us) (.combine .union [form, other]) := by
  intro stack members
  obtain ⟨level, read, hrun, hread, hmembers⟩ := hts stack members
  obtain ⟨level', read', hrun', hread', hmembers'⟩ := hus stack read
  have hnext : State.next? (.type stack level) (.sign .bar) =
      some (.type stack ⟨read, [], .missing⟩) := by
    show (level.next? (.sign .bar)).map (State.type stack) = _
    rw [Level.next?, hread, Option.map_some, Option.map_some]
  refine ⟨level', read', ?_, hread', ?_⟩
  · rw [run?_append hrun, run?_cons hnext, hrun']
  · rw [hmembers', hmembers, Form.operands_combine (by simp [hform, hother]), List.flatMap_cons,
      List.flatMap_singleton, List.append_assoc]

/-- The sign between the types that are combined. -/
def Combination.sign : Combination → Sign
  | .union => .bar
  | .intersection => .ampersand

/-- The tokens are read as types that are combined with others. -/
def ReadsOperands : Combination → List Token → Form → Prop
  | .union => ReadsMembers
  | .intersection => ReadsFactors

/-- Types with the sign between them are combined. -/
theorem ReadsOperands.combine {op : Combination} (hts : ReadsOperands op ts form)
    (hus : ReadsOperands op us other) (hform : form.Normal) (hother : other.Normal) :
    ReadsOperands op (ts ++ .sign op.sign :: us) (.combine op [form, other]) := by
  cases op with
  | union => exact ReadsMembers.or hts hus hform hother
  | intersection => exact ReadsFactors.and hts hus hform hother

/-! ## Types inside others -/

/-- A type on a level of its own is read to its end. -/
theorem ReadsMembers.exists_run (h : ReadsMembers ts form) (hnormal : form.Normal)
    (stack : List Frame) : ∃ level : Level,
      run? (.type stack .start) ts = some (.type stack level) ∧ level.form? = some form := by
  obtain ⟨level, read, hrun, hread, hmembers⟩ := h stack []
  refine ⟨level, hrun, ?_⟩
  rw [Level.form?, hread, Option.map_some, ← Form.combine_singleton .union hnormal]
  refine congrArg some (Form.combine_congr ?_)
  rw [hmembers, List.flatMap_nil, List.nil_append, List.flatMap_singleton]

/-- The tokens of a type are read as that type. -/
theorem ReadsMembers.readTokens? (h : ReadsMembers ts form) (hnormal : form.Normal) :
    readTokens? ts = some form := by
  obtain ⟨level, hrun, hform⟩ := h.exists_run hnormal []
  rw [Script.readTokens?, hrun, Option.bind_some, State.form?, hform]

example : readType? (fun _ => false) "A | (B | 'c')[] & D".toList =
    some (.compound .union [.name ["A"], .compound .intersection
      [.array (.compound .union [.name ["B"], .text "c"]), .name ["D"]]]) := rfl

/-- Behind a type and the sign that ends it, the reader goes on around it. -/
theorem ReadsMembers.run?_closing (h : ReadsMembers ts form) (hnormal : form.Normal)
    (frame : Frame) (stack : List Frame) :
    run? (.type (frame :: stack) .start) (ts ++ [.sign frame.closing]) =
      some (frame.resume stack form) := by
  obtain ⟨level, hrun, hform⟩ := h.exists_run hnormal (frame :: stack)
  have hclose : level.close? frame.closing (frame :: stack) = some (frame.resume stack form) := by
    rw [Level.close?, if_pos rfl, hform, Option.map_some]
  have hnext : State.next? (.type (frame :: stack) level) (.sign frame.closing) =
      some (frame.resume stack form) := by
    cases frame <;> exact hclose
  rw [run?_append hrun, run?_cons hnext]
  rfl

/-- A type in parentheses is an operand. -/
theorem ReadsMembers.group (h : ReadsMembers ts form) (hnormal : form.Normal) :
    ReadsOperand (.sign .openGroup :: (ts ++ [.sign .closeGroup])) form := by
  intro stack members factors
  have hclosing := h.run?_closing hnormal (.group ⟨members, factors, .missing⟩) stack
  exact ⟨.done form, (run?_cons rfl).trans hclosing, rfl⟩

/-- An operand with brackets behind it is an operand. -/
theorem ReadsOperand.array (h : ReadsOperand ts form) :
    ReadsOperand (ts ++ [.sign .openBracket, .sign .closeBracket]) (.array form) := by
  intro stack members factors
  obtain ⟨operand, hrun, hform⟩ := h stack members factors
  have hbracket : operand.next? (.sign .openBracket) = some (.bracket form) := by
    cases operand <;> first | cases hform; rfl | cases hform
  have hnext : State.next? (.type stack ⟨members, factors, operand⟩) (.sign .openBracket) =
      some (.type stack ⟨members, factors, .bracket form⟩) := by
    show ((operand.next? (.sign .openBracket)).map _).map _ = _
    rw [hbracket]
    rfl
  refine ⟨.done (.array form), ?_, rfl⟩
  rw [run?_append hrun, run?_cons hnext]
  rfl

/-! ## Names and literals -/

theorem readsOperand_text (value : String) : ReadsOperand [.text value] (.text value) :=
  fun _ _ _ => ⟨_, rfl, rfl⟩

theorem readsOperand_whole (i : ℤ) : ReadsOperand (wholeTokens i) (.whole i) := by
  cases i with
  | ofNat n => exact fun _ _ _ => ⟨_, rfl, rfl⟩
  | negSucc n => exact fun _ _ _ => ⟨_, rfl, rfl⟩

theorem readsOperand_constant {word : String} (h : word ∈ constants) :
    ReadsOperand [.word word] (.name [word]) := by
  intro stack members factors
  have hword : Operand.ofWord? word = some (.done (.name [word])) := if_pos h
  refine ⟨.done (.name [word]), ?_, rfl⟩
  show ((Option.map _ (Operand.ofWord? word)).map _).bind _ = _
  rw [hword]
  rfl

/-- A word that is none of those with a meaning of their own. -/
def IsFree (word : String) : Prop := word ∉ constants ∧ word ∉ keywords

instance (word : String) : Decidable (IsFree word) :=
  inferInstanceAs (Decidable (word ∉ constants ∧ word ∉ keywords))

/-- The tokens of a name are read to its end. -/
theorem run?_dottedTokens {word : String} (hword : IsFree word) (rest : List String)
    (stack : List Frame) (members factors : List Form) :
    run? (.type stack ⟨members, factors, .missing⟩) (dottedTokens (word :: rest)) =
      some (.type stack ⟨members, factors, .name (word :: rest)⟩) := by
  have hfirst : State.next? (.type stack ⟨members, factors, .missing⟩) (.word word) =
      some (.type stack ⟨members, factors, .name [word]⟩) := by
    have hof : Operand.ofWord? word = some (.name [word]) := by
      rw [Operand.ofWord?, if_neg hword.1, if_neg hword.2]
    show (Option.map _ (Operand.ofWord? word)).map _ = _
    rw [hof]
    rfl
  have hrest : ∀ path : List String,
      run? (.type stack ⟨members, factors, .name path⟩)
        (rest.flatMap fun part => [.sign .point, .word part]) =
        some (.type stack ⟨members, factors, .name (path ++ rest)⟩) := by
    induction rest with
    | nil =>
      intro path
      rw [List.append_nil]
      rfl
    | cons part rest ih =>
      intro path
      have hpart := ih (path ++ [part])
      rw [List.append_assoc, List.singleton_append] at hpart
      exact ((run?_cons rfl).trans (run?_cons rfl)).trans hpart
  rw [dottedTokens, run?_cons hfirst]
  exact hrest [word]

theorem readsOperand_name {word : String} (hword : IsFree word) (rest : List String) :
    ReadsOperand (dottedTokens (word :: rest)) (.name (word :: rest)) :=
  fun stack members factors => ⟨_, run?_dottedTokens hword rest stack members factors, rfl⟩

/-- A name with a type in angle brackets behind it is an operand. -/
theorem ReadsMembers.apply (h : ReadsMembers ts form) (hnormal : form.Normal) {word : String}
    (hword : IsFree word) (rest : List String) :
    ReadsOperand (dottedTokens (word :: rest) ++ .sign .less :: (ts ++ [.sign .greater]))
      (.apply (word :: rest) form) := by
  intro stack members factors
  have hclosing := h.run?_closing hnormal
    (.argument ⟨members, factors, .name (word :: rest)⟩ (word :: rest)) stack
  refine ⟨.done (.apply (word :: rest) form), ?_, rfl⟩
  rw [run?_append (run?_dottedTokens hword rest stack members factors)]
  exact (run?_cons rfl).trans hclosing

/-! ## Object types -/

/-- The tokens are read as properties of an object type, behind those that it has. -/
def ReadsProperties (tokens : List Token) (properties : List (Property Form)) : Prop :=
  ∀ stack level before, run? (.entry stack level ⟨before, none⟩ .start) tokens =
    some (.entry stack level ⟨before ++ properties, none⟩ .start)

/-- The tokens are read as the index signature of an object type, or as nothing. -/
def ReadsIndex (tokens : List Token) (index : Option Form) : Prop :=
  ∀ stack level properties, run? (.entry stack level ⟨properties, none⟩ .start) tokens =
    some (.entry stack level ⟨properties, index⟩ .start)

/-- The tokens of a property's name and its modifiers. -/
def keyTokens (name : String) (isReadOnly isOptional : Bool) : List Token :=
  (if isReadOnly then [.word "readonly"] else []) ++
    (.text name :: if isOptional then [.sign .question] else [])

/-- The tokens of the key of an index signature. -/
def indexTokens : List Token :=
  [.sign .openBracket, .word "key", .sign .colon, .word "string", .sign .closeBracket]

theorem readsProperties_nil : ReadsProperties [] [] := by
  intro stack level before
  rw [List.append_nil]
  rfl

theorem ReadsProperties.append {ps qs : List (Property Form)} (hts : ReadsProperties ts ps)
    (hus : ReadsProperties us qs) : ReadsProperties (ts ++ us) (ps ++ qs) := by
  intro stack level before
  rw [run?_append (hts stack level before), hus stack level, List.append_assoc]

theorem ReadsMembers.property (h : ReadsMembers ts form) (hnormal : form.Normal) (name : String)
    (isReadOnly isOptional : Bool) :
    ReadsProperties (keyTokens name isReadOnly isOptional ++
        .sign .colon :: (ts ++ [.sign .semicolon])) [⟨name, isReadOnly, isOptional, form⟩] := by
  intro stack level before
  have hkey : run? (.entry stack level ⟨before, none⟩ .start)
      (keyTokens name isReadOnly isOptional) =
      some (.entry stack level ⟨before, none⟩ (.key name isReadOnly isOptional)) := by
    cases isReadOnly <;> cases isOptional <;> rfl
  have hclosing := h.run?_closing hnormal
    (.property level ⟨before, none⟩ name isReadOnly isOptional) stack
  rw [run?_append hkey]
  refine (run?_cons ?_).trans hclosing
  cases isOptional <;> rfl

theorem readsIndex_nil : ReadsIndex [] none := fun _ _ _ => rfl

theorem ReadsMembers.index (h : ReadsMembers ts form) (hnormal : form.Normal) :
    ReadsIndex (indexTokens ++ .sign .colon :: (ts ++ [.sign .semicolon])) (some form) := by
  intro stack level properties
  have hkey : run? (.entry stack level ⟨properties, none⟩ .start) indexTokens =
      some (.entry stack level ⟨properties, none⟩ .closed) := rfl
  have hclosing := h.run?_closing hnormal (.index level ⟨properties, none⟩) stack
  rw [run?_append hkey]
  exact (run?_cons rfl).trans hclosing

/-- An object type is an operand. -/
theorem ReadsProperties.object {properties : List (Property Form)} {index : Option Form}
    (hts : ReadsProperties ts properties) (hus : ReadsIndex us index) :
    ReadsOperand (.sign .openBrace :: (ts ++ (us ++ [.sign .closeBrace])))
      (.object properties index) := by
  intro stack members factors
  have hopen : State.next? (.type stack ⟨members, factors, .missing⟩) (.sign .openBrace) =
      some (.entry stack ⟨members, factors, .missing⟩ ⟨[], none⟩ .start) := rfl
  refine ⟨.done (.object properties index), ?_, rfl⟩
  rw [run?_cons hopen, run?_append (hts _ _ []), List.nil_append,
    run?_append (hus _ _ properties)]
  rfl

end TypedClient.Script
