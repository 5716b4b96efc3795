import TypedClient.Proofs.Script.TypeReader
import TypedClient.Proofs.Text.Parts
import TypedClient.Proofs.TypeExpr.Parts
import TypedClient.Source.TypeText

/-!
# The text of a type reads back

A type expression is written with parentheses only in front of brackets and between `&`; the members
of a union, what null is added to, and the types of properties have none.  All the same the script
reads what is written, at every depth, as the normal form of the expression: unions in unions and
intersections in intersections are flattened, and those of one type are that type; null is one more
member of a union, literals are the members of one, and the marks of a property are factors of an
intersection.

Names must be names of the script.  An expression takes any text as a name or as what is in front of
it; a text with an operator in it is read as the operator, and brackets behind it bind to its last
operand.

* `normal`: the normal form of a type expression.
* `IsTypeName`, `Writable`: a text is a name; an expression has such names, and something to write.
* `Spelled`: the text of an expression is read as a form, in every place where it may stand.
* `readType?_typeText`: what is written for a type expression.
* `not_reads_back_of_operator`: an array of what is named by an operator.
-/

namespace TypedClient.Script

open Source (quote literal typeText namedText primitiveText builtinText grouped needsGroup
  taggedText fieldKey fieldLines indexLines memberTexts groupedTexts margin)

/-! ## Normal forms -/

/-- The form of a name: with a view, the application of its projection. -/
def namedForm (name qualifier : String) (view : Option View) (isBuiltin : Bool) : Form :=
  let path :=
    if isBuiltin then if name = "DateTime" then ["Date"] else dotted name.toList
    else dotted (qualifier ++ name).toList
  match view with
  | none => .name path
  | some v => .apply (dotted (qualifier ++ v.projection).toList) (.name path)

/-- The form of a type without parts; integers are numbers. -/
def primitiveForm : PrimitiveType → Form
  | .integer => .name ["number"]
  | type => .name [type.name]

/-- The form of a literal. -/
def literalForm : Value → Form
  | .null => .name ["null"]
  | .bool b => .name [if b then "true" else "false"]
  | .int i => .whole i
  | v => .text v.display

/-- The names of the marks of a property. -/
def marks (isReadOnly isWriteOnly isMarked : Bool) : List String :=
  if isMarked then
    (if isReadOnly then ["readonlyP"] else []) ++ (if isWriteOnly then ["writeonlyP"] else [])
  else []

/-- The intersection of a type with marks. -/
def markedForm (form : Form) (marks : List String) : Form :=
  .combine .intersection (form :: marks.map fun mark => .name [mark])

mutual

/-- The normal form of a type expression. -/
def normal : TypeExpr → Form
  | .named name qualifier view isBuiltin => namedForm name qualifier view isBuiltin
  | .array items => .array (normal items)
  | .object fields index => .object (normalFields fields) (normalIndex index)
  | .sum members => .combine .union (normalMembers members)
  | .product members => .combine .intersection (normalMembers members)
  | .literals values => .combine .union (values.map literalForm)
  | .primitive type => primitiveForm type
  | .nullable inner => .combine .union [normal inner, .name ["null"]]

/-- The normal forms of the properties of an object type. -/
def normalFields : List (String × FieldOf TypeExpr) → List (Property Form)
  | [] => []
  | (name, ⟨type, isOptional, isReadOnly, isWriteOnly, isMarked⟩) :: rest =>
    ⟨name, isReadOnly, isOptional,
      markedForm (normal type) (marks isReadOnly isWriteOnly isMarked)⟩ :: normalFields rest

/-- The normal form of an index signature. -/
def normalIndex : Option TypeExpr → Option Form
  | none => none
  | some type => some (normal type)

/-- The normal forms of a list of types. -/
def normalMembers : List TypeExpr → List Form
  | [] => []
  | type :: rest => normal type :: normalMembers rest

end

/-! ## What can be written -/

/-- The text is a name of the script: identifiers with points between them, the first of which is no
word with a meaning of its own. -/
structure IsTypeName (isLetter : Char → Bool) (text : List Char) : Prop where
  identifiers : ∀ piece ∈ Text.segments '.' text, isIdentifier isLetter piece = true
  free : ∀ word ∈ (dotted text).head?, IsFree word

instance (isLetter : Char → Bool) (text : List Char) : Decidable (IsTypeName isLetter text) :=
  decidable_of_iff
    ((∀ piece ∈ Text.segments '.' text, isIdentifier isLetter piece = true) ∧
      ∀ word ∈ (dotted text).head?, IsFree word)
    ⟨fun h => ⟨h.1, h.2⟩, fun h => ⟨h.identifiers, h.free⟩⟩

/-- Texts, whole numbers and truth values. -/
def isScalar : Value → Bool
  | .text _ => true
  | .int _ => true
  | .bool _ => true
  | _ => false

/-- The expression itself, whatever its parts: its names are names, it has at least one member, and
its literals are texts, whole numbers and truth values. -/
def Writable (isLetter : Char → Bool) : TypeExpr → Prop
  | .named name qualifier view isBuiltin =>
    IsTypeName isLetter (if isBuiltin then name else qualifier ++ name).toList ∧
      ∀ v ∈ view, IsTypeName isLetter (qualifier ++ v.projection).toList
  | .sum members => members ≠ []
  | .product members => members ≠ []
  | .literals values => values ≠ [] ∧ ∀ v ∈ values, isScalar v = true
  | _ => True

variable {isLetter : Char → Bool} {op : Combination} {s t : List Char} {form other : Form}

/-! ## Texts that are read as a form -/

/-- The text is cut into tokens that are read as the form. -/
def Spells (isLetter : Char → Bool) (Reads : List Token → Form → Prop) (text : List Char)
    (form : Form) : Prop :=
  ∃ tokens, tokens? isLetter text = some tokens ∧ Reads tokens form

theorem Spells.members (h : Spells isLetter ReadsOperand s form) (hnormal : form.Normal) :
    Spells isLetter ReadsMembers s form := by
  obtain ⟨tokens, htokens, hreads⟩ := h
  exact ⟨tokens, htokens, hreads.factors.members hnormal⟩

theorem Spells.of_factors (h : Spells isLetter ReadsFactors s form) (hnormal : form.Normal) :
    Spells isLetter ReadsMembers s form := by
  obtain ⟨tokens, htokens, hreads⟩ := h
  exact ⟨tokens, htokens, hreads.members hnormal⟩

theorem Spells.operands (h : Spells isLetter ReadsOperand s form) (hnormal : form.Normal) :
    Spells isLetter (ReadsOperands op) s form := by
  cases op with
  | union => exact h.members hnormal
  | intersection =>
    obtain ⟨tokens, htokens, hreads⟩ := h
    exact ⟨tokens, htokens, hreads.factors⟩

theorem Spells.group (h : Spells isLetter ReadsMembers s form) (hnormal : form.Normal) :
    Spells isLetter ReadsOperand ('(' :: (s ++ [')'])) form := by
  obtain ⟨tokens, htokens, hreads⟩ := h
  have hopen : IsBounded isLetter ['('] [.sign .openGroup] := isBounded_of_closed rfl rfl
  have hclose : IsBounded isLetter [')'] [.sign .closeGroup] := isBounded_of_closed rfl rfl
  exact ⟨_, (hopen.closed.append (hclose.closed_append htokens)).tokens?_eq, hreads.group hnormal⟩

theorem Spells.array (h : Spells isLetter ReadsOperand s form) :
    Spells isLetter ReadsOperand (s ++ ['[', ']']) (.array form) := by
  obtain ⟨tokens, htokens, hreads⟩ := h
  have hbrackets : IsBounded isLetter ['[', ']'] [.sign .openBracket, .sign .closeBracket] :=
    isBounded_of_closed rfl rfl
  exact ⟨_, (hbrackets.closed_append htokens).tokens?_eq, hreads.array⟩

theorem IsTypeName.exists_dotted (h : IsTypeName isLetter s) :
    ∃ word rest, dotted s = word :: rest ∧ IsFree word := by
  obtain ⟨piece, pieces, hpieces⟩ := List.exists_cons_of_ne_nil (Text.segments_ne_nil '.' s)
  refine ⟨String.ofList piece, pieces.map String.ofList, ?_, h.free _ ?_⟩
  · rw [dotted, hpieces, List.map_cons]
  · rw [dotted, hpieces, List.map_cons]
    rfl

/-- A name is read as such. -/
theorem IsTypeName.spells (h : IsTypeName isLetter s) :
    Spells isLetter ReadsOperand s (.name (dotted s)) := by
  obtain ⟨word, rest, hdotted, hword⟩ := h.exists_dotted
  have hreads := readsOperand_name hword rest
  rw [← hdotted] at hreads
  exact ⟨_, tokens?_dotted h.identifiers, hreads⟩

/-- A name with a type in angle brackets is read as such. -/
theorem IsTypeName.spells_apply (h : IsTypeName isLetter s)
    (ht : Spells isLetter ReadsMembers t form) (hnormal : form.Normal) :
    Spells isLetter ReadsOperand (s ++ '<' :: (t ++ ['>'])) (.apply (dotted s) form) := by
  obtain ⟨word, rest, hdotted, hword⟩ := h.exists_dotted
  obtain ⟨tokens, htokens, hreads⟩ := ht
  have hless : IsBounded isLetter ['<'] [.sign .less] := isBounded_of_closed rfl rfl
  have hgreater : IsBounded isLetter ['>'] [.sign .greater] := isBounded_of_closed rfl rfl
  have happly := hreads.apply hnormal hword rest
  rw [← hdotted] at happly
  exact ⟨_, tokens?_between (tokens?_dotted h.identifiers) hless
    (hgreater.closed_append htokens).tokens?_eq, happly⟩

/-- A word of the script that is a name is read as such. -/
theorem spells_word {word : String} (hword : isIdentifier isLetter word.toList = true)
    (hreads : ReadsOperand [.word word] (.name [word])) :
    Spells isLetter ReadsOperand word.toList (.name [word]) := by
  have htokens := tokens?_identifier hword
  rw [String.ofList_toList] at htokens
  exact ⟨_, htokens, hreads⟩

/-- A word without a meaning of its own is read as a name. -/
theorem spells_free {word : String} (hfree : IsFree word)
    (hword : isIdentifier isLetter word.toList = true) :
    Spells isLetter ReadsOperand word.toList (.name [word]) :=
  spells_word hword (readsOperand_name hfree [])

/-! ## Lists of types -/

/-- What is written between the types that are combined. -/
def Combination.separator : Combination → String
  | .union => " | "
  | .intersection => " & "

theorem isBounded_separator (op : Combination) :
    IsBounded isLetter op.separator.toList [.sign op.sign] := by
  cases op with
  | union => exact isBounded_of_closed (c := ' ') (s := ['|', ' ']) rfl rfl
  | intersection => exact isBounded_of_closed (c := ' ') (s := ['&', ' ']) rfl rfl

/-- Two types with the separator between them are combined. -/
theorem Spells.combine (hs : Spells isLetter (ReadsOperands op) s form)
    (ht : Spells isLetter (ReadsOperands op) t other) (hform : form.Normal)
    (hother : other.Normal) :
    Spells isLetter (ReadsOperands op) (s ++ (op.separator.toList ++ t))
      (.combine op [form, other]) := by
  obtain ⟨tokens, htokens, hreads⟩ := hs
  obtain ⟨others, hothers, hreads'⟩ := ht
  exact ⟨_, tokens?_between htokens (isBounded_separator op) hothers,
    hreads.combine hreads' hform hother⟩

/-- Types with the separators between them are combined. -/
theorem spells_joinWith (op : Combination) {α : Type} {members : List α} {text : α → String}
    {form : α → Form} (hne : members ≠ []) (h : ∀ m ∈ members,
      Spells isLetter (ReadsOperands op) (text m).toList (form m) ∧ (form m).Normal) :
    Spells isLetter (ReadsOperands op) (Text.joinWith op.separator (members.map text)).toList
      (.combine op (members.map form)) := by
  induction members with
  | nil => exact absurd rfl hne
  | cons m members ih =>
    rw [List.forall_mem_cons] at h
    obtain ⟨⟨hspells, hnormal⟩, hrest⟩ := h
    cases members with
    | nil =>
      rw [List.map_singleton, List.map_singleton, Text.joinWith_singleton,
        Form.combine_singleton op hnormal]
      exact hspells
    | cons m' members =>
      have hforms : ∀ f ∈ (m' :: members).map form, f.Normal :=
        List.forall_mem_map.mpr fun k hk => (hrest k hk).2
      rw [List.map_cons, List.map_cons, List.map_cons, Text.joinWith_cons_cons,
        ← List.map_cons (f := text), String.toList_append, String.toList_append, List.append_assoc,
        Form.combine_cons hforms]
      exact hspells.combine (ih (List.cons_ne_nil _ _) hrest) hnormal
        (Form.normal_combine (List.cons_ne_nil _ _) hforms)

/-! ## Expressions -/

/-- The text of an expression is read as a form in normal form: as a union wherever a type may
stand, and as an operand if it is one. -/
structure Spelled (isLetter : Char → Bool) (type : TypeExpr) (text : String) (form : Form) :
    Prop where
  members : Spells isLetter ReadsMembers text.toList form
  operand : needsGroup type = false → Spells isLetter ReadsOperand text.toList form
  normal : form.Normal

variable {type : TypeExpr} {written : String}

theorem Spelled.of_operand (h : Spells isLetter ReadsOperand written.toList form)
    (hnormal : form.Normal) : Spelled isLetter type written form :=
  ⟨h.members hnormal, fun _ => h, hnormal⟩

theorem Spelled.of_members (h : Spells isLetter ReadsMembers written.toList form)
    (hnormal : form.Normal) (hgroup : needsGroup type = true) :
    Spelled isLetter type written form :=
  ⟨h, fun hfalse => absurd (hfalse.symm.trans hgroup) Bool.false_ne_true, hnormal⟩

/-- In parentheses where it needs them, every expression is an operand. -/
theorem Spelled.grouped (h : Spelled isLetter type written form) :
    Spells isLetter ReadsOperand (grouped type written).toList form := by
  rw [Source.grouped]
  split
  · rw [String.toList_append, String.toList_append, List.append_assoc]
    exact h.members.group h.normal
  · rename_i hgroup
    exact h.operand (Bool.eq_false_iff.mpr hgroup)

theorem spelled_primitive (type : PrimitiveType) :
    Spelled isLetter (.primitive type) (primitiveText type) (primitiveForm type) := by
  cases type with
  | void => exact .of_operand (spells_word rfl (readsOperand_constant (by decide))) (.name _)
  | string => exact .of_operand (spells_free (by decide) rfl) (.name _)
  | number => exact .of_operand (spells_free (by decide) rfl) (.name _)
  | integer => exact .of_operand (spells_free (by decide) rfl) (.name _)
  | boolean => exact .of_operand (spells_free (by decide) rfl) (.name _)
  | any => exact .of_operand (spells_free (by decide) rfl) (.name _)
  | unknown => exact .of_operand (spells_free (by decide) rfl) (.name _)

theorem isTypeName_date : IsTypeName isLetter "Date".toList where
  identifiers := by
    intro piece hpiece
    obtain rfl := List.mem_singleton.mp hpiece
    rfl
  free := by
    intro word hword
    obtain rfl := Option.mem_some.mp hword
    decide

theorem spelled_named {name qualifier : String} {view : Option View} {isBuiltin : Bool}
    (h : Writable isLetter (.named name qualifier view isBuiltin)) :
    Spelled isLetter (.named name qualifier view isBuiltin)
      (namedText name qualifier view isBuiltin) (namedForm name qualifier view isBuiltin) := by
  obtain ⟨hplain, hview⟩ := h
  have hpath : ∃ plain : String, IsTypeName isLetter plain.toList ∧
      (if isBuiltin then builtinText name else qualifier ++ name) = plain ∧
      (if isBuiltin then if name = "DateTime" then ["Date"] else dotted name.toList
        else dotted (qualifier ++ name).toList) = dotted plain.toList := by
    cases isBuiltin with
    | false => exact ⟨_, hplain, rfl, rfl⟩
    | true =>
      by_cases hname : name = "DateTime"
      · exact ⟨"Date", isTypeName_date, if_pos hname, if_pos hname⟩
      · exact ⟨name, hplain, if_neg hname, if_neg hname⟩
  obtain ⟨plain, hname, htext, hform⟩ := hpath
  have hspells := hname.spells
  cases view with
  | none =>
    simp only [namedText, namedForm, htext, hform]
    exact .of_operand hspells (.name _)
  | some v =>
    simp only [namedText, namedForm, htext, hform]
    refine .of_operand ?_ (.apply _ (.name _))
    have happly := (hview v rfl).spells_apply (hspells.members (.name _)) (.name _)
    simp only [String.toList_append, List.append_assoc] at happly ⊢
    exact happly

theorem normal_literalForm (v : Value) : (literalForm v).Normal := by
  cases v with
  | int i => exact .whole i
  | null => exact .name _
  | bool b => exact .name _
  | _ => exact .text _

theorem spells_literal {v : Value} (h : isScalar v = true) :
    Spells isLetter ReadsOperand (literal v).toList (literalForm v) := by
  cases v with
  | text s => exact ⟨_, (isBounded_quote s).closed.tokens?_eq, readsOperand_text s⟩
  | int i => exact ⟨_, tokens?_toString i, readsOperand_whole i⟩
  | bool b =>
    cases b with
    | false => exact spells_word rfl (readsOperand_constant (by decide))
    | true => exact spells_word rfl (readsOperand_constant (by decide))
  | _ => cases h

theorem spelled_literals {values : List Value} (h : Writable isLetter (.literals values)) :
    Spelled isLetter (.literals values) (Text.joinWith " | " (values.map literal))
      (.combine .union (values.map literalForm)) := by
  obtain ⟨hne, hvalues⟩ := h
  refine ⟨?_, fun hgroup => ?_, Form.normal_combine_map hne fun v _ => normal_literalForm v⟩
  · exact spells_joinWith .union hne fun v hv =>
      ⟨(spells_literal (hvalues v hv)).members (normal_literalForm v), normal_literalForm v⟩
  · -- a single literal is the only case without parentheses
    obtain ⟨v, rest, rfl⟩ := List.exists_cons_of_ne_nil hne
    have hlength : ¬ 1 < (v :: rest).length := of_decide_eq_false hgroup
    rw [List.length_cons] at hlength
    obtain rfl : rest = [] := List.eq_nil_of_length_eq_zero (by omega)
    rw [List.map_singleton, List.map_singleton, Text.joinWith_singleton,
      Form.combine_singleton .union (normal_literalForm v)]
    exact spells_literal (hvalues v List.mem_cons_self)

theorem spelled_nullable (h : Spelled isLetter type written form) :
    Spelled isLetter (.nullable type) (written ++ " | null")
      (.combine .union [form, .name ["null"]]) := by
  have hnull : Spells isLetter ReadsOperand "null".toList (.name ["null"]) :=
    spells_word rfl (readsOperand_constant (by decide))
  refine .of_members ?_ (Form.normal_combine (List.cons_ne_nil _ _) ?_) rfl
  · rw [String.toList_append]
    have hmembers : Spells isLetter (ReadsOperands .union) written.toList form := h.members
    exact hmembers.combine (hnull.operands (.name _)) h.normal (.name _)
  · intro f hf
    rcases List.mem_pair.mp hf with rfl | rfl
    · exact h.normal
    · exact .name _

theorem spelled_array (h : Spelled isLetter type written form) :
    Spelled isLetter (.array type) (grouped type written ++ "[]") (.array form) := by
  refine .of_operand ?_ (.array h.normal)
  rw [String.toList_append]
  exact h.grouped.array

theorem memberTexts_eq_map (depth : ℕ) (members : List TypeExpr) :
    memberTexts depth members = members.map (typeText depth) := by
  induction members with
  | nil => rfl
  | cons type rest ih => rw [memberTexts, ih, List.map_cons]

theorem groupedTexts_eq_map (depth : ℕ) (members : List TypeExpr) :
    groupedTexts depth members = members.map fun m => grouped m (typeText depth m) := by
  induction members with
  | nil => rfl
  | cons type rest ih => rw [groupedTexts, ih, List.map_cons]

theorem normalMembers_eq_map (members : List TypeExpr) :
    normalMembers members = members.map normal := by
  induction members with
  | nil => rfl
  | cons type rest ih => rw [normalMembers, ih, List.map_cons]

section

variable {depth : ℕ} {members : List TypeExpr}

theorem spelled_sum (hne : members ≠ [])
    (h : ∀ m ∈ members, Spelled isLetter m (typeText depth m) (normal m)) :
    Spelled isLetter (.sum members) (typeText depth (.sum members)) (normal (.sum members)) := by
  rw [typeText, normal, memberTexts_eq_map, normalMembers_eq_map]
  refine .of_members ?_ (Form.normal_combine_map hne fun m hm => (h m hm).normal) rfl
  exact spells_joinWith .union hne fun m hm => ⟨(h m hm).members, (h m hm).normal⟩

theorem spelled_product (hne : members ≠ [])
    (h : ∀ m ∈ members, Spelled isLetter m (typeText depth m) (normal m)) :
    Spelled isLetter (.product members) (typeText depth (.product members))
      (normal (.product members)) := by
  have hnormal : (Form.combine .intersection (members.map normal)).Normal :=
    Form.normal_combine_map hne fun m hm => (h m hm).normal
  rw [typeText, normal, groupedTexts_eq_map, normalMembers_eq_map]
  refine .of_members ?_ hnormal rfl
  exact (spells_joinWith .intersection hne fun m hm =>
    ⟨(h m hm).grouped.operands (h m hm).normal, (h m hm).normal⟩).of_factors hnormal

end

/-! ## Object types -/

/-- A line of a text, with the end of the line in front of it. -/
def lineChars (line : String) : List Char := '\n' :: line.toList

/-- The margin of a line is no token. -/
theorem isClosed_margin (depth : ℕ) : IsClosed isLetter (lineChars (margin depth)) [] := by
  have hblanks (n : ℕ) : IsClosed isLetter (List.replicate n ' ') [] := by
    induction n with
    | zero => rfl
    | succ n ih => exact (scan?_cons rfl).trans ih
  rw [lineChars, margin, String.toList_ofList]
  exact (scan?_cons rfl).trans (hblanks _)

theorem isClosed_fieldKey (name : String) (isReadOnly isOptional : Bool) :
    IsClosed isLetter (fieldKey name isReadOnly isOptional).toList
      (keyTokens name isReadOnly isOptional) := by
  have hfront : IsClosed isLetter (if isReadOnly then "readonly " else "").toList
      (if isReadOnly then [.word "readonly"] else []) := by
    cases isReadOnly <;> rfl
  have hback : IsClosed isLetter (if isOptional then "?" else "").toList
      (if isOptional then [.sign .question] else []) := by
    cases isOptional <;> rfl
  rw [fieldKey, keyTokens, String.toList_append, String.toList_append, List.append_assoc]
  exact hfront.append ((isBounded_quote name).closed.append hback)

/-- With marks, a property's type is written in parentheses, and the marks behind it. -/
theorem taggedText_eq (isReadOnly isWriteOnly isMarked : Bool) (written : String) :
    taggedText isReadOnly isWriteOnly isMarked written =
      match marks isReadOnly isWriteOnly isMarked with
      | [] => written
      | mark :: rest => Text.joinWith " & " (("(" ++ written ++ ")") :: mark :: rest) := by
  cases isReadOnly <;> cases isWriteOnly <;> cases isMarked <;>
    simp [taggedText, marks, Text.joinWith, String.append_assoc]

theorem forall_normal_marks (names : List String) :
    ∀ f ∈ names.map fun mark => Form.name [mark], f.Normal :=
  List.forall_mem_map.mpr fun mark _ => .name [mark]

theorem normal_markedForm (hnormal : form.Normal) (names : List String) :
    (markedForm form names).Normal :=
  Form.normal_combine (List.cons_ne_nil _ _)
    (List.forall_mem_cons.mpr ⟨hnormal, forall_normal_marks names⟩)

/-- A property's type and its marks are read as their intersection. -/
theorem Spelled.tagged (h : Spelled isLetter type written form)
    (isReadOnly isWriteOnly isMarked : Bool) :
    Spells isLetter ReadsMembers (taggedText isReadOnly isWriteOnly isMarked written).toList
      (markedForm form (marks isReadOnly isWriteOnly isMarked)) := by
  have hmarks : ∀ mark ∈ marks isReadOnly isWriteOnly isMarked,
      Spells isLetter ReadsOperand mark.toList (.name [mark]) := by
    have hmark : ∀ mark ∈ ["readonlyP", "writeonlyP"],
        Spells isLetter ReadsOperand mark.toList (.name [mark]) := by
      intro mark hmem
      rcases List.mem_pair.mp hmem with rfl | rfl
      · exact spells_free (by decide) rfl
      · exact spells_free (by decide) rfl
    have hsubset : marks isReadOnly isWriteOnly isMarked ⊆ ["readonlyP", "writeonlyP"] := by
      cases isReadOnly <;> cases isWriteOnly <;> cases isMarked <;> decide
    exact fun mark hmem => hmark mark (hsubset hmem)
  have hnormal := normal_markedForm h.normal (marks isReadOnly isWriteOnly isMarked)
  rw [taggedText_eq]
  cases hnames : marks isReadOnly isWriteOnly isMarked with
  | nil =>
    rw [markedForm, List.map_nil, Form.combine_singleton .intersection h.normal]
    exact h.members
  | cons mark rest =>
    rw [hnames] at hmarks hnormal
    have hgroup : Spells isLetter ReadsOperand ("(" ++ written ++ ")").toList form := by
      rw [String.toList_append, String.toList_append, List.append_assoc]
      exact h.members.group h.normal
    have hrest : Spells isLetter (ReadsOperands .intersection)
        (Text.joinWith " & " ((mark :: rest).map id)).toList
        (.combine .intersection ((mark :: rest).map fun m => .name [m])) :=
      spells_joinWith .intersection (List.cons_ne_nil _ _) fun m hm =>
        ⟨(hmarks m hm).operands (.name _), .name _⟩
    have hforms := forall_normal_marks (mark :: rest)
    rw [List.map_id] at hrest
    show Spells _ _ (Text.joinWith " & " (("(" ++ written ++ ")") :: mark :: rest)).toList _
    rw [Text.joinWith_cons_cons, String.toList_append, String.toList_append, List.append_assoc]
    rw [markedForm, Form.combine_cons hforms] at hnormal ⊢
    exact ((hgroup.operands h.normal).combine hrest h.normal
      (Form.normal_combine (List.cons_ne_nil _ _) hforms)).of_factors hnormal

/-- The line of a property is read as that property, wherever an entry may stand. -/
theorem exists_tokens_field {depth : ℕ} (name : String) {f : FieldOf TypeExpr}
    (h : Spelled isLetter f.type (typeText (depth + 1) f.type) (normal f.type)) :
    ∃ tokens, IsClosed isLetter
        (lineChars (margin (depth + 1) ++ fieldKey name f.isReadOnly f.isOptional ++ ": " ++
          taggedText f.isReadOnly f.isWriteOnly f.isMarked (typeText (depth + 1) f.type) ++ ";"))
        tokens ∧
      ReadsProperties tokens [⟨name, f.isReadOnly, f.isOptional,
        markedForm (normal f.type) (marks f.isReadOnly f.isWriteOnly f.isMarked)⟩] := by
  obtain ⟨tokens, htokens, hreads⟩ := h.tagged f.isReadOnly f.isWriteOnly f.isMarked
  have hcolon : IsClosed isLetter ": ".toList [.sign .colon] := rfl
  have hsemicolon : IsBounded isLetter ";".toList [.sign .semicolon] :=
    isBounded_of_closed (c := ';') (s := []) rfl rfl
  refine ⟨_, ?_, hreads.property (normal_markedForm h.normal _) name f.isReadOnly f.isOptional⟩
  have hmargin : IsClosed isLetter (lineChars (margin (depth + 1))) [] := isClosed_margin _
  have hline := hmargin.append ((isClosed_fieldKey name f.isReadOnly f.isOptional).append
    (hcolon.append (hsemicolon.closed_append htokens)))
  simp only [lineChars, String.toList_append, List.append_assoc, List.cons_append] at hline ⊢
  exact hline

/-- The lines of the properties are read as the properties. -/
theorem exists_tokens_fields {depth : ℕ} {fields : List (String × FieldOf TypeExpr)}
    (h : ∀ f ∈ fields,
      Spelled isLetter f.2.type (typeText (depth + 1) f.2.type) (normal f.2.type)) :
    ∃ tokens, IsClosed isLetter ((fieldLines depth fields).flatMap lineChars) tokens ∧
      ReadsProperties tokens (normalFields fields) := by
  induction fields with
  | nil => exact ⟨[], isClosed_nil, readsProperties_nil⟩
  | cons f fields ih =>
    obtain ⟨name, field⟩ := f
    rw [List.forall_mem_cons] at h
    obtain ⟨tokens, hclosed, hreads⟩ := exists_tokens_field name h.1
    obtain ⟨others, hothers, hreads'⟩ := ih h.2
    refine ⟨tokens ++ others, ?_, hreads.append hreads'⟩
    rw [fieldLines, List.flatMap_cons]
    exact hclosed.append hothers

/-- The line of an index signature is read as the index signature. -/
theorem exists_tokens_index {depth : ℕ} {index : Option TypeExpr}
    (h : ∀ type ∈ index, Spelled isLetter type (typeText (depth + 1) type) (normal type)) :
    ∃ tokens, IsClosed isLetter ((indexLines depth index).flatMap lineChars) tokens ∧
      ReadsIndex tokens (normalIndex index) := by
  cases index with
  | none => exact ⟨[], isClosed_nil, readsIndex_nil⟩
  | some type =>
    obtain ⟨tokens, htokens, hreads⟩ := (h type rfl).members
    have hmargin : IsClosed isLetter (lineChars (margin (depth + 1))) [] := isClosed_margin _
    have hkey : IsClosed isLetter "[key: string]: ".toList (indexTokens ++ [.sign .colon]) := rfl
    have hsemicolon : IsBounded isLetter ";".toList [.sign .semicolon] :=
      isBounded_of_closed (c := ';') (s := []) rfl rfl
    refine ⟨_, ?_, hreads.index (h type rfl).normal⟩
    have hline := hmargin.append (hkey.append (hsemicolon.closed_append htokens))
    rw [indexLines, List.flatMap_singleton]
    simp only [lineChars, String.toList_append, List.append_assoc, List.cons_append,
      List.nil_append] at hline ⊢
    exact hline

theorem toList_joinWith_cons (first : String) (lines : List String) :
    (Text.joinWith "\n" (first :: lines)).toList = first.toList ++ lines.flatMap lineChars :=
  Text.toList_joinWith_cons "\n" first lines

theorem normal_normalFields {fields : List (String × FieldOf TypeExpr)}
    (h : ∀ f ∈ fields, (normal f.2.type).Normal) : ∀ p ∈ normalFields fields, p.type.Normal := by
  induction fields with
  | nil => exact fun p hp => absurd hp List.not_mem_nil
  | cons f fields ih =>
    rw [List.forall_mem_cons] at h
    exact List.forall_mem_cons.mpr ⟨normal_markedForm h.1 _, ih h.2⟩

theorem normal_normalIndex {index : Option TypeExpr} (h : ∀ type ∈ index, (normal type).Normal) :
    ∀ form ∈ normalIndex index, form.Normal := by
  cases index with
  | none => exact fun form hform => absurd hform (Option.not_mem_none form)
  | some type =>
    rintro form hform
    rw [← Option.mem_some.mp hform]
    exact h type rfl

/-- An object type is an operand, over however many lines it is written. -/
theorem spelled_object {depth : ℕ} {fields : List (String × FieldOf TypeExpr)}
    {index : Option TypeExpr}
    (hfields : ∀ f ∈ fields,
      Spelled isLetter f.2.type (typeText (depth + 1) f.2.type) (normal f.2.type))
    (hindex : ∀ type ∈ index, Spelled isLetter type (typeText (depth + 1) type) (normal type)) :
    Spelled isLetter (.object fields index) (typeText depth (.object fields index))
      (normal (.object fields index)) := by
  have hopen : IsClosed isLetter "\x7b".toList [.sign .openBrace] := rfl
  have hclose : IsClosed isLetter "\x7d".toList [.sign .closeBrace] := rfl
  have hmargin : IsClosed isLetter (lineChars (margin depth)) [] := isClosed_margin _
  refine .of_operand ?_ (.object (normal_normalFields fun f hf => (hfields f hf).normal)
    (normal_normalIndex fun type htype => (hindex type htype).normal))
  rw [typeText]
  split
  · rename_i hempty
    rw [Bool.and_eq_true, List.isEmpty_iff, Option.isNone_iff_eq_none] at hempty
    obtain ⟨rfl, rfl⟩ := hempty
    exact ⟨_, (hopen.append hclose).tokens?_eq, readsProperties_nil.object readsIndex_nil⟩
  · obtain ⟨tokens, hclosed, hreads⟩ := exists_tokens_fields hfields
    obtain ⟨others, hothers, hreads'⟩ := exists_tokens_index hindex
    refine ⟨_, ?_, hreads.object hreads'⟩
    have hlines := hopen.append (hclosed.append (hothers.append (hmargin.append hclose)))
    rw [toList_joinWith_cons, List.flatMap_append, List.flatMap_append, List.flatMap_singleton]
    simp only [lineChars, String.toList_append, List.cons_append] at hlines ⊢
    exact hlines.tokens?_eq

/-! ## Every expression -/

mutual

theorem spelled_type : ∀ (depth : ℕ) (type : TypeExpr),
    (∀ part : TypeExpr, part.Within type → Writable isLetter part) →
      Spelled isLetter type (typeText depth type) (normal type)
  | depth, .named name qualifier view isBuiltin, h => by
    rw [typeText, normal]
    exact spelled_named (h _ .refl)
  | depth, .array items, h => by
    rw [typeText, normal]
    exact spelled_array (spelled_type depth items fun part hpart => h part (.array hpart))
  | depth, .object fields index, h =>
    spelled_object
      (spelled_fields (depth + 1) fields fun f hf part hpart => h part (.field hf hpart))
      (spelled_index (depth + 1) index fun type htype part hpart =>
        h part (by rw [Option.mem_def.mp htype]; exact .index hpart))
  | depth, .sum members, h =>
    spelled_sum (h _ .refl)
      (spelled_members depth members fun m hm part hpart => h part (.sum hm hpart))
  | depth, .product members, h =>
    spelled_product (h _ .refl)
      (spelled_members depth members fun m hm part hpart => h part (.product hm hpart))
  | depth, .literals values, h => by
    rw [typeText, normal]
    exact spelled_literals (h _ .refl)
  | depth, .primitive type, _ => by
    rw [typeText, normal]
    exact spelled_primitive type
  | depth, .nullable inner, h => by
    rw [typeText, normal]
    exact spelled_nullable (spelled_type depth inner fun part hpart => h part (.nullable hpart))

theorem spelled_fields : ∀ (depth : ℕ) (fields : List (String × FieldOf TypeExpr)),
    (∀ f ∈ fields, ∀ part : TypeExpr, part.Within f.2.type → Writable isLetter part) →
      ∀ f ∈ fields, Spelled isLetter f.2.type (typeText depth f.2.type) (normal f.2.type)
  | _, [], _ => fun _ hf => absurd hf List.not_mem_nil
  | depth, (_, ⟨type, _, _, _, _⟩) :: rest, h => List.forall_mem_cons.mpr
    ⟨spelled_type depth type (h _ List.mem_cons_self),
      spelled_fields depth rest fun _ hf => h _ (List.mem_cons_of_mem _ hf)⟩

theorem spelled_index : ∀ (depth : ℕ) (index : Option TypeExpr),
    (∀ type ∈ index, ∀ part : TypeExpr, part.Within type → Writable isLetter part) →
      ∀ type ∈ index, Spelled isLetter type (typeText depth type) (normal type)
  | _, none, _ => fun type htype => absurd htype (Option.not_mem_none type)
  | depth, some type, h => fun other hother => by
    obtain rfl := Option.mem_some.mp hother
    exact spelled_type depth type (h type rfl)

theorem spelled_members : ∀ (depth : ℕ) (members : List TypeExpr),
    (∀ m ∈ members, ∀ part : TypeExpr, part.Within m → Writable isLetter part) →
      ∀ m ∈ members, Spelled isLetter m (typeText depth m) (normal m)
  | _, [], _ => fun _ hm => absurd hm List.not_mem_nil
  | depth, type :: rest, h => List.forall_mem_cons.mpr
    ⟨spelled_type depth type (h _ List.mem_cons_self),
      spelled_members depth rest fun _ hm => h _ (List.mem_cons_of_mem _ hm)⟩

end

/-- The text of an expression, at whatever depth it starts, is read as its normal form. -/
theorem readType?_typeText (depth : ℕ) {type : TypeExpr}
    (h : ∀ part : TypeExpr, part.Within type → Writable isLetter part) :
    readType? isLetter (typeText depth type).toList = some (normal type) := by
  have hspelled := spelled_type depth type h
  obtain ⟨tokens, htokens, hreads⟩ := hspelled.members
  rw [readType?, htokens, Option.bind_some, hreads.readTokens? hspelled.normal]

theorem readType?_typeText_marked :
    readType? (fun _ => false) (typeText 1 (.object
      [("it's", ⟨.array (.sum [.named "Pet" "types." (some .input) false,
        .nullable (.literals [.text "a | b", .int (-1)])]), true, true, false, true⟩)]
      (some (.product [.named "Base" "" none false,
        .sum [.primitive .integer, .named "DateTime" "" none true]])))).toList =
    some (.object
      [⟨"it's", true, true, .compound .intersection [.array (.compound .union
        [.apply ["types", "InputView"] (.name ["types", "Pet"]), .text "a | b", .whole (-1),
          .name ["null"]]), .name ["readonlyP"]]⟩]
      (some (.compound .intersection [.name ["Base"],
        .compound .union [.name ["number"], .name ["Date"]]]))) := by
  refine readType?_typeText 1 fun part hpart => ?_
  simp only [TypeExpr.within_object_iff, TypeExpr.within_array_iff, TypeExpr.within_sum_iff,
    TypeExpr.within_product_iff, TypeExpr.within_nullable_iff, TypeExpr.within_literals_iff,
    TypeExpr.within_primitive_iff, TypeExpr.within_named_iff, List.mem_cons, List.not_mem_nil,
    or_false, exists_eq_left, exists_eq_or_imp, Option.mem_some, exists_eq_left'] at hpart
  rcases hpart with rfl | (rfl | rfl | rfl | rfl | rfl) | rfl | rfl | rfl | rfl | rfl
  · exact trivial
  · exact trivial
  · exact List.cons_ne_nil _ _
  · exact ⟨by decide, by decide⟩
  · exact trivial
  · exact ⟨List.cons_ne_nil _ _, by decide⟩
  · exact List.cons_ne_nil _ _
  · exact ⟨by decide, by decide⟩
  · exact List.cons_ne_nil _ _
  · exact trivial
  · exact ⟨by decide, by decide⟩

/-- Neither an array of what has an operator in front of its name, nor one of what has the name of
an operator, reads back. -/
theorem not_reads_back_of_operator :
    readType? (fun _ => false) (typeText 0 (.array (.named "B" "A | " none false))).toList =
        some (.compound .union [.name ["A"], .array (.name ["B"])]) ∧
      readType? (fun _ => false) (typeText 0 (.array (.named "B" "A | " none false))).toList ≠
        some (normal (.array (.named "B" "A | " none false))) ∧
      readType? (fun _ => false) (typeText 0 (.array (.named "keyof" "" none false))).toList =
        none := by
  refine ⟨rfl, fun h => ?_, rfl⟩
  exact Form.noConfusion (Option.some.inj h)

end TypedClient.Script
