import TypedClient.Proofs.Client.Assembly
import TypedClient.Proofs.Client.Parameters
import TypedClient.Proofs.Script.Variables

/-!
# The scope of a method

The text of a method is put together from parts of its declaration that are settled one by one: the
signature from the types of the parameters and the data, the path from the placeholders, the options
from the headers and the query, the data from the kind of the method.  They fit together: what the
call uses is declared, and the helper is there for the methods that pick parameters.

* `Variable`, `signature`: the variables that a method declares.
* `bodyUses`: the variables that its call uses.
* `WellScoped`: what holds of a method whose text fits together.
* `wellScoped_declarations`: it holds of every method of a client, and the helper comes last exactly
  if a method picks parameters.
-/

namespace TypedClient.Client

open Script (Use Phrase usesIn phrase_joinWith phrase_quote phrase_urlText)
open Source (argumentTexts braced hasShorthand optionsText pickText quote signatureText targetText
  typeText urlText)

/-! ## Variables -/

/-- A variable that a method declares: its name, whether it may be left out, and its type. -/
structure Variable where
  name : String
  isOptional : Bool
  type : String

/-- The text that declares a variable. -/
def Variable.text (v : Variable) : String :=
  v.name ++ (if v.isOptional then "?: " else ": ") ++ v.type

/-- The variables that a method declares. -/
def signature (c : Callable) : List Variable :=
  (c.parametersType.map fun type => ⟨"params", false, typeText 1 type⟩).toList ++
    (c.dataType.map fun type => ⟨"data", false, typeText 1 type⟩).toList ++
    [⟨"options", true, "AxiosRequestConfig"⟩]

/-- The names of the variables that a method declares. -/
def declaredNames (c : Callable) : List String :=
  (signature c).map Variable.name

/-- The names that a method may use without declaring them: those of the script, and the helper. -/
def globalNames : List String := ["this", "String", "Object", "pick"]

/-- The function that a method calls, without the type that it is given. -/
def receiverText (c : Callable) : String :=
  "this.axios." ++ if hasShorthand c.method then c.method.name else "request"

/-- The variables that the call in a method uses, in the function and in the arguments. -/
def bodyUses (c : Callable) : List Use :=
  usesIn (receiverText c) ++ (argumentTexts c).flatMap usesIn

theorem signatureText_eq (c : Callable) :
    signatureText c = Text.joinWith ", " ((signature c).map Variable.text) := by
  rw [signatureText, signature, List.map_append, List.map_append]
  cases c.parametersType <;> cases c.dataType <;> rfl

theorem mem_declaredNames_iff {c : Callable} {name : String} :
    name ∈ declaredNames c ↔ (name = "params" ∧ c.parametersType.isSome = true) ∨
      (name = "data" ∧ c.dataType.isSome = true) ∨ name = "options" := by
  rw [declaredNames, signature]
  cases c.parametersType <;> cases c.dataType <;> simp

/-! ## What the arguments use -/

/-- What picking parameters uses. -/
def pickUses : List Use := [⟨"pick", true⟩, ⟨"params", false⟩]

theorem phrase_pickText (names : List String) : Phrase (pickText names).toList pickUses := by
  have hopen : Phrase "pick(params, ".toList pickUses :=
    ⟨[.word "pick" false, .sign '(', .word "params" false, .sign ','], by decide, fun _ => rfl⟩
  have hclose : Phrase ")".toList [] := ⟨[.sign ')'], by decide, fun _ => rfl⟩
  have hnames : Phrase (Text.joinWith ", " (names.map quote)).toList
      ((names.map quote).flatMap fun _ => []) := by
    refine phrase_joinWith fun text htext => ?_
    obtain ⟨name, -, rfl⟩ := List.mem_map.mp htext
    exact phrase_quote name
  rw [List.flatMap_eq_nil_iff.mpr fun _ _ => rfl] at hnames
  rw [pickText, String.toList_append, String.toList_append]
  exact (hopen.append hnames).append hclose

/-- The parts of the options that a method picks. -/
def projectionTexts (c : Callable) : List String :=
  (if c.headerParameters.isEmpty then [] else ["headers: " ++ pickText c.headerParameters]) ++
  (if c.queryParameters.isEmpty then [] else ["params: " ++ pickText c.queryParameters])

theorem optionsText_eq (c : Callable) :
    optionsText c = if (projectionTexts c).isEmpty then "options"
      else "Object.assign(\x7b\x7d, " ++ braced (projectionTexts c) ++ ", options)" := rfl

/-- Parts of the options are picked exactly if the method picks parameters. -/
theorem isEmpty_projectionTexts (c : Callable) : (projectionTexts c).isEmpty = !picks c := by
  rw [projectionTexts, picks]
  cases c.headerParameters.isEmpty <;> cases c.queryParameters.isEmpty <;> rfl

theorem phrase_projectionText (c : Callable) :
    ∀ text ∈ projectionTexts c, Phrase text.toList pickUses := by
  have hheaders : Phrase "headers: ".toList [] :=
    ⟨[.word "headers" false, .sign ':'], by decide, fun _ => rfl⟩
  have hparams : Phrase "params: ".toList [] :=
    ⟨[.word "params" false, .sign ':'], by decide, fun _ => rfl⟩
  intro text htext
  rcases List.mem_append.mp htext with htext | htext
  · split at htext
    · exact absurd htext List.not_mem_nil
    · rw [List.mem_singleton.mp htext, String.toList_append]
      exact hheaders.append (phrase_pickText _)
  · split at htext
    · exact absurd htext List.not_mem_nil
    · rw [List.mem_singleton.mp htext, String.toList_append]
      exact hparams.append (phrase_pickText _)

/-- What the options of a call use. -/
def optionsUses (c : Callable) : List Use :=
  if picks c then
    ⟨"Object", false⟩ :: (projectionTexts c).flatMap (fun _ => pickUses) ++ [⟨"options", false⟩]
  else [⟨"options", false⟩]

/-- The lexemes in front of the parts of the options that are picked. -/
def assignLexemes : List Script.Lexeme :=
  [.word "Object" false, .word "assign" true, .sign '(', .sign '\x7b', .sign '\x7d', .sign ',',
    .sign '\x7b']

/-- The options are read for themselves with a comma behind them, also where they are spread. -/
theorem phrase_optionsText (c : Callable) {front : String}
    (hfront : front = "" ∨ front = "\x7b ...") :
    Phrase (front ++ optionsText c ++ ",").toList (optionsUses c) := by
  cases hpicks : picks c with
  | false =>
    have htext : optionsText c = "options" := by
      rw [optionsText_eq, isEmpty_projectionTexts, hpicks]
      rfl
    rw [htext, optionsUses, hpicks]
    rcases hfront with rfl | rfl
    · exact ⟨[.word "options" false, .sign ','], by decide, fun _ => rfl⟩
    · exact ⟨[.sign '\x7b', .word "options" false, .sign ','], by decide, fun _ => rfl⟩
  | true =>
    have htext : (front ++ optionsText c ++ ",").toList =
        (front ++ "Object.assign(\x7b\x7d, \x7b ").toList ++
          (Text.joinWith ", " (projectionTexts c)).toList ++ " \x7d, options),".toList := by
      rw [optionsText_eq, isEmpty_projectionTexts, hpicks]
      simp [braced]
    have hopen : Phrase (front ++ "Object.assign(\x7b\x7d, \x7b ").toList [⟨"Object", false⟩] := by
      rcases hfront with rfl | rfl
      · exact ⟨assignLexemes, by decide, fun _ => rfl⟩
      · exact ⟨.sign '\x7b' :: assignLexemes, by decide, fun _ => rfl⟩
    have hclose : Phrase " \x7d, options),".toList [⟨"options", false⟩] :=
      ⟨[.sign '\x7d', .sign ',', .word "options" false, .sign ')', .sign ','], by decide,
        fun _ => rfl⟩
    rw [htext, optionsUses, hpicks]
    exact (hopen.append (phrase_joinWith (phrase_projectionText c))).append hclose

/-- What the expression for the path uses. -/
def urlUses (c : Callable) : List Use :=
  c.pathParameters.flatMap fun _ => Script.callUses

theorem phrase_urlArgument (c : Callable) :
    Phrase ((urlText c.path c.pathParameters).toList ++ [',']) (urlUses c) := by
  have hcomma : Phrase [','] [] := ⟨[.sign ','], by decide, fun _ => rfl⟩
  have hall := (phrase_urlText c.path c.pathParameters).append hcomma
  rw [List.append_nil] at hall
  exact hall

theorem phrase_optionsArgument (c : Callable) :
    Phrase ((optionsText c).toList ++ [',']) (optionsUses c) := by
  have hall := phrase_optionsText c (Or.inl rfl)
  rw [String.empty_append, String.toList_append] at hall
  exact hall

/-- The only argument of a method without a function of its own, which spreads the options. -/
theorem phrase_requestArgument (c : Callable) :
    Phrase (("\x7b ..." ++ optionsText c ++ ", method: " ++ quote c.method.label ++ ", url: " ++
        urlText c.path c.pathParameters ++ " \x7d").toList ++ [','])
      (optionsUses c ++ urlUses c) := by
  have hmethod : Phrase " method: ".toList [] :=
    ⟨[.word "method" false, .sign ':'], by decide, fun _ => rfl⟩
  have hurl : Phrase ", url: ".toList [] :=
    ⟨[.sign ',', .word "url" false, .sign ':'], by decide, fun _ => rfl⟩
  have hclose : Phrase " \x7d,".toList [] := ⟨[.sign '\x7d', .sign ','], by decide, fun _ => rfl⟩
  have hall := (phrase_optionsText c (Or.inr rfl)).append (hmethod.append
    ((phrase_quote c.method.label).append (hurl.append
      ((phrase_urlText c.path c.pathParameters).append hclose))))
  simpa [urlUses] using hall

/-- What the arguments of a call use, one after the other. -/
def argumentUses (c : Callable) : List (List Use) :=
  if hasShorthand c.method then
    [urlUses c] ++
      (if c.sendsData then [if c.dataType.isSome then [⟨"data", false⟩] else []] else []) ++
      [optionsUses c]
  else [optionsUses c ++ urlUses c]

/-- Every argument is read for itself with a comma behind it. -/
theorem phrases_argumentTexts (c : Callable) :
    List.Forall₂ (fun text used => Phrase (text.toList ++ [',']) used) (argumentTexts c)
      (argumentUses c) := by
  have hdata : Phrase ("data".toList ++ [',']) [⟨"data", false⟩] :=
    ⟨[.word "data" false, .sign ','], by decide, fun _ => rfl⟩
  have hempty : Phrase ("\x7b\x7d".toList ++ [',']) [] :=
    ⟨[.sign '\x7b', .sign '\x7d', .sign ','], by decide, fun _ => rfl⟩
  rw [argumentTexts, argumentUses]
  cases hasShorthand c.method with
  | false => exact .cons (phrase_requestArgument c) .nil
  | true =>
    cases c.sendsData with
    | false => exact .cons (phrase_urlArgument c) (.cons (phrase_optionsArgument c) .nil)
    | true =>
      refine .cons (phrase_urlArgument c) (.cons ?_ (.cons (phrase_optionsArgument c) .nil))
      cases c.dataType.isSome with
      | false => exact hempty
      | true => exact hdata

/-- No argument leaves a literal open, and each uses what it is said to use. -/
theorem read_argumentTexts (c : Callable) :
    (∀ text ∈ argumentTexts c, Script.IsFinished text) ∧
      (argumentTexts c).map usesIn = argumentUses c := by
  have hphrases : List.Forall₂ (fun text used => Script.IsFinished text ∧ usesIn text = used)
      (argumentTexts c) (argumentUses c) :=
    (phrases_argumentTexts c).imp fun _ _ h => ⟨h.isFinished, h.usesIn_eq⟩
  obtain ⟨hfinished, huses⟩ := (List.forall₂_and_left _ _).mp hphrases
  rw [← List.forall₂_map_left_iff (R := Eq), List.forall₂_eq_eq_eq] at huses
  exact ⟨hfinished, huses⟩

/-- What the call in a method uses, in the order in which it is written. -/
theorem bodyUses_eq (c : Callable) :
    bodyUses c = ⟨"this", false⟩ :: (argumentUses c).flatten := by
  have hreceiver : usesIn (receiverText c) = [⟨"this", false⟩] := by
    rw [receiverText]
    cases c.method <;> decide
  rw [bodyUses, hreceiver, List.singleton_append, List.flatMap, (read_argumentTexts c).2]

/-- The same list for each element of a list. -/
theorem mem_flatMap_const {α β : Type} {l : List α} {m : List β} {b : β} :
    b ∈ l.flatMap (fun _ => m) ↔ l ≠ [] ∧ b ∈ m := by
  rw [List.mem_flatMap]
  constructor
  · rintro ⟨a, ha, hb⟩
    exact ⟨List.ne_nil_of_mem ha, hb⟩
  · rintro ⟨hne, hb⟩
    obtain ⟨a, ha⟩ := List.exists_mem_of_ne_nil l hne
    exact ⟨a, ha, hb⟩

theorem mem_optionsUses_iff {c : Callable} {use : Use} :
    use ∈ optionsUses c ↔ use = ⟨"options", false⟩ ∨
      (picks c = true ∧ (use = ⟨"Object", false⟩ ∨ use ∈ pickUses)) := by
  rw [optionsUses]
  cases hpicks : picks c with
  | false => simp
  | true =>
    have hne : projectionTexts c ≠ [] := by
      rw [← List.isEmpty_eq_false_iff, isEmpty_projectionTexts, hpicks]
      rfl
    rw [if_pos rfl, List.cons_append, List.mem_cons, List.mem_append, mem_flatMap_const,
      List.mem_singleton]
    simp only [hne, ne_eq, not_false_eq_true, true_and]
    rw [← or_assoc, or_comm]

/-- What the call in a method uses. -/
theorem mem_bodyUses_iff {c : Callable} {use : Use} :
    use ∈ bodyUses c ↔ use = ⟨"this", false⟩ ∨ use = ⟨"options", false⟩ ∨
      (picks c = true ∧ (use = ⟨"Object", false⟩ ∨ use ∈ pickUses)) ∨
      (c.pathParameters ≠ [] ∧ use ∈ Script.callUses) ∨
      ((hasShorthand c.method = true ∧ c.sendsData = true ∧ c.dataType.isSome = true) ∧
        use = ⟨"data", false⟩) := by
  have hurl : use ∈ urlUses c ↔ c.pathParameters ≠ [] ∧ use ∈ Script.callUses := mem_flatMap_const
  have hoptions : use ∈ optionsUses c ↔ use = ⟨"options", false⟩ ∨
      (picks c = true ∧ (use = ⟨"Object", false⟩ ∨ use ∈ pickUses)) := mem_optionsUses_iff
  rw [← or_assoc (a := use = ⟨"options", false⟩), ← hoptions, ← hurl, bodyUses_eq, argumentUses]
  cases hasShorthand c.method <;> cases c.sendsData <;> cases c.dataType.isSome <;>
    simp [or_comm, or_left_comm]

/-- The helper is called exactly by the methods that pick parameters. -/
theorem calls_pick_iff {c : Callable} : ⟨"pick", true⟩ ∈ bodyUses c ↔ picks c = true := by
  rw [mem_bodyUses_iff]
  simp [pickUses, Script.callUses]

/-- The names that the call in a method uses. -/
theorem name_of_mem_bodyUses {c : Callable} {use : Use} (h : use ∈ bodyUses c) :
    use.name ∈ globalNames ∨ use.name = "options" ∨
      (use.name = "params" ∧ (c.pathParameters ≠ [] ∨ picks c = true)) ∨
      (use.name = "data" ∧ c.dataType.isSome = true) := by
  rcases mem_bodyUses_iff.mp h with rfl | rfl | ⟨hpicks, h⟩ | ⟨hpath, h⟩ | ⟨⟨-, -, hdata⟩, rfl⟩
  · exact Or.inl (by decide)
  · exact Or.inr (Or.inl rfl)
  · simp only [pickUses, List.mem_cons, List.not_mem_nil, or_false] at h
    rcases h with rfl | rfl | rfl
    · exact Or.inl (by decide)
    · exact Or.inl (by decide)
    · exact Or.inr (Or.inr (Or.inl ⟨rfl, Or.inr hpicks⟩))
  · simp only [Script.callUses, List.mem_cons, List.not_mem_nil, or_false] at h
    rcases h with rfl | rfl
    · exact Or.inl (by decide)
    · exact Or.inr (Or.inr (Or.inl ⟨rfl, Or.inl hpath⟩))
  · exact Or.inr (Or.inr (Or.inr ⟨rfl, hdata⟩))

/-! ## The data of a call -/

/-- The argument stands for the data of a call: it is the data, or an empty object. -/
def IsDataText (text : String) : Prop :=
  text = "data" ∨ text = "\x7b\x7d"

/-- An argument that begins like neither of them does not stand for the data. -/
theorem not_isDataText {text : String} (hdata : text.toList.take 2 ≠ ['d', 'a'])
    (hempty : text.toList.take 2 ≠ ['\x7b', '\x7d']) : ¬ IsDataText text := by
  rintro (rfl | rfl)
  · exact hdata (by decide)
  · exact hempty (by decide)

theorem not_isDataText_urlText (path : String) (names : List String) :
    ¬ IsDataText (urlText path names) := by
  have hclosing : Script.string.closing = '\'' := rfl
  refine not_isDataText ?_ ?_ <;> rw [Script.toList_urlText, hclosing] <;> simp

theorem not_isDataText_optionsText (c : Callable) : ¬ IsDataText (optionsText c) := by
  rw [optionsText_eq]
  split
  · exact not_isDataText (by decide) (by decide)
  · refine not_isDataText ?_ ?_ <;> rw [String.toList_append, String.toList_append] <;> simp

theorem sendsData_iff (m : Method) :
    m.sendsData = true ↔ m ∈ [Method.post, .put, .patch] := by
  cases m <;> decide

/-- The methods that send data have a function of their own. -/
theorem hasShorthand_of_sendsData {m : Method} (h : m.sendsData = true) :
    hasShorthand m = true := by
  cases m with
  | trace => cases h
  | _ => rfl

/-- An argument stands for the data exactly in the methods that send it. -/
theorem exists_isDataText_iff {c : Callable} (hsends : c.sendsData = c.method.sendsData) :
    (∃ text ∈ argumentTexts c, IsDataText text) ↔ c.method ∈ [Method.post, .put, .patch] := by
  rw [← sendsData_iff, argumentTexts]
  constructor
  · rintro ⟨text, htext, hdata⟩
    split at htext
    · rcases List.mem_append.mp htext with htext | htext
      · rcases List.mem_append.mp htext with htext | htext
        · rw [List.mem_singleton.mp htext] at hdata
          exact absurd hdata (not_isDataText_urlText _ _)
        · split at htext
          · rw [← hsends]
            assumption
          · exact absurd htext List.not_mem_nil
      · rw [List.mem_singleton.mp htext] at hdata
        exact absurd hdata (not_isDataText_optionsText c)
    · rw [List.mem_singleton.mp htext] at hdata
      refine absurd hdata (not_isDataText ?_ ?_) <;> simp [String.toList_append]
  · intro hmethod
    rw [if_pos (hasShorthand_of_sendsData hmethod), hsends, if_pos hmethod]
    refine ⟨_, List.mem_append_left _ (List.mem_append_right _ List.mem_cons_self), ?_⟩
    split
    · exact Or.inl rfl
    · exact Or.inr rfl

/-! ## Methods that fit together -/

/-- The text of a method fits together: its signature declares its variables, and its call names the
function with the type of the response; the parameters that it names are in the type of its
parameters, and what its call uses is declared. -/
structure WellScoped (c : Callable) : Prop where
  signature : signatureText c = Text.joinWith ", " ((signature c).map Variable.text)
  target : targetText c = receiverText c ++ "<" ++ typeText 2 c.returnType ++ ">"
  known : ∀ name ∈ c.pathParameters ++ c.headerParameters ++ c.queryParameters,
    name ∈ c.parameterFields.names
  /-- No argument leaves a literal open that would swallow what is behind it. -/
  finished : ∀ text ∈ argumentTexts c, Script.IsFinished text
  closed : ∀ use ∈ bodyUses c, use.name ∈ declaredNames c ∨ use.name ∈ globalNames
  /-- The parameters are used only if they are declared. -/
  parameters : (∃ use ∈ bodyUses c, use.name = "params") → "params" ∈ declaredNames c
  /-- The data is used exactly if it is declared. -/
  data : (∃ use ∈ bodyUses c, use.name = "data") ↔ "data" ∈ declaredNames c
  /-- The data, or an empty object in its place, is passed exactly by the methods that send it. -/
  body : (∃ text ∈ argumentTexts c, IsDataText text) ↔ c.method ∈ [Method.post, .put, .patch]

section

variable {lib : Library} {qualifier : String} {modifiers : Bool} {op : AnalyzedOperation}

/-- The names of the parameters of a place are in the type of the parameters. -/
theorem mem_names_of_mem_namesIn {place : Place} {name : String} (h : name ∈ namesIn op place) :
    name ∈ (callable lib qualifier modifiers op).1.parameterFields.names := by
  obtain ⟨p, hp, rfl⟩ := List.mem_map.mp h
  rw [names_parameterFields, List.mem_eraseDups]
  exact List.mem_map_of_mem (List.mem_filter.mp hp).1

/-- The parameters that a method names are in the type of its parameters. -/
theorem mem_names_parameterFields {name : String}
    (h : name ∈ (callable lib qualifier modifiers op).1.pathParameters ++
      (callable lib qualifier modifiers op).1.headerParameters ++
      (callable lib qualifier modifiers op).1.queryParameters) :
    name ∈ (callable lib qualifier modifiers op).1.parameterFields.names := by
  rcases List.mem_append.mp h with h | h
  · rcases List.mem_append.mp h with h | h
    · exact mem_names_of_mem_namesIn (List.contains_iff_mem.mp (List.mem_filter.mp h).2)
    · exact mem_names_of_mem_namesIn h
  · exact mem_names_of_mem_namesIn h

/-- A method that has data sends it. -/
theorem sendsData_of_dataType
    (h : (callable lib qualifier modifiers op).1.dataType.isSome = true) :
    op.method.sendsData = true := by
  have htype : (callable lib qualifier modifiers op).1.dataType =
      (dataType lib qualifier modifiers op).1 := rfl
  rw [htype, dataType] at h
  cases hsends : op.method.sendsData with
  | true => rfl
  | false =>
    rw [hsends] at h
    cases h

/-- A method with a field for a parameter has a type for its parameters. -/
theorem isSome_parametersType_of_mem {c : Callable} {name : String}
    (h : name ∈ c.parameterFields.names) : c.parametersType.isSome = true := by
  cases htype : c.parametersType with
  | some type => rfl
  | none =>
    rw [Callable.parameterFields, htype] at h
    exact absurd h List.not_mem_nil

/-- A method that inserts or picks parameters declares them. -/
theorem isSome_parametersType {c : Callable}
    (hknown : ∀ name ∈ c.pathParameters ++ c.headerParameters ++ c.queryParameters,
      name ∈ c.parameterFields.names)
    (h : c.pathParameters ≠ [] ∨ picks c = true) : c.parametersType.isSome = true := by
  have hne : c.pathParameters ++ c.headerParameters ++ c.queryParameters ≠ [] := by
    intro hnil
    rw [List.append_eq_nil_iff, List.append_eq_nil_iff] at hnil
    obtain ⟨⟨hpath, hheader⟩, hquery⟩ := hnil
    rcases h with h | h
    · exact h hpath
    · rw [picks, hheader, hquery] at h
      cases h
  obtain ⟨name, hname⟩ := List.exists_mem_of_ne_nil _ hne
  exact isSome_parametersType_of_mem (hknown name hname)

/-- The text of a method fits together, if the parameters that it names are in the type of its
parameters, and the data that it has is sent by its kind of method. -/
theorem wellScoped_of {c : Callable}
    (hknown : ∀ name ∈ c.pathParameters ++ c.headerParameters ++ c.queryParameters,
      name ∈ c.parameterFields.names)
    (hsends : c.sendsData = c.method.sendsData)
    (hdata : c.dataType.isSome = true → c.method.sendsData = true) : WellScoped c where
  signature := signatureText_eq c
  target := rfl
  known := hknown
  finished := (read_argumentTexts c).1
  closed := by
    intro use huse
    rcases name_of_mem_bodyUses huse with h | h | ⟨h, hparameters⟩ | ⟨h, htype⟩
    · exact Or.inr h
    · exact Or.inl (mem_declaredNames_iff.mpr (Or.inr (Or.inr h)))
    · have htype := isSome_parametersType hknown hparameters
      exact Or.inl (mem_declaredNames_iff.mpr (Or.inl ⟨h, htype⟩))
    · exact Or.inl (mem_declaredNames_iff.mpr (Or.inr (Or.inl ⟨h, htype⟩)))
  parameters := by
    rintro ⟨use, huse, hname⟩
    have h := name_of_mem_bodyUses huse
    rw [hname] at h
    have hparameters : c.pathParameters ≠ [] ∨ picks c = true := by
      simpa [globalNames] using h
    exact mem_declaredNames_iff.mpr (Or.inl ⟨rfl, isSome_parametersType hknown hparameters⟩)
  data := by
    constructor
    · rintro ⟨use, huse, hname⟩
      have h := name_of_mem_bodyUses huse
      rw [hname] at h
      have htype : c.dataType.isSome = true := by
        simpa [globalNames] using h
      exact mem_declaredNames_iff.mpr (Or.inr (Or.inl ⟨rfl, htype⟩))
    · intro hdeclared
      have htype : c.dataType.isSome = true := by
        rcases mem_declaredNames_iff.mp hdeclared with ⟨h, -⟩ | ⟨-, htype⟩ | h
        · exact absurd h (by decide)
        · exact htype
        · exact absurd h (by decide)
      have hmethod := hdata htype
      exact ⟨_, mem_bodyUses_iff.mpr (Or.inr (Or.inr (Or.inr (Or.inr
        ⟨⟨hasShorthand_of_sendsData hmethod, hsends.trans hmethod, htype⟩, rfl⟩)))), rfl⟩
  body := exists_isDataText_iff hsends

/-- The text of the method of an operation fits together. -/
theorem wellScoped_callable : WellScoped (callable lib qualifier modifiers op).1 :=
  wellScoped_of (fun _ => mem_names_parameterFields) rfl sendsData_of_dataType

end

/-! ## The methods of a client -/

/-- The helper comes last in a client exactly if a method picks parameters. -/
theorem getLast?_declarations (space : Option String) (draft : Draft) :
    (draft.declarations space).getLast? = some .pickHelper ↔
      ∃ c ∈ draft.callables, picks c = true := by
  constructor
  · exact fun h => pickHelper_mem_declarations.mp (List.mem_of_getLast? h)
  · intro h
    rw [Draft.declarations, if_pos (List.any_eq_true.mpr h), List.getLast?_concat]

/-- The text of every method of a client fits together, and the helper comes last in the client
exactly if a method calls it. -/
theorem wellScoped_declarations (lib : Library) (settings : Settings) (modifiers : Bool)
    (operations : List AnalyzedOperation) {declared : List Declaration} {notes : List Diagnostic}
    (h : declarations lib settings modifiers operations = .ok (declared, notes)) :
    (∀ c ∈ declared.filterMap Declaration.callable?, WellScoped c) ∧
    (declared.getLast? = some .pickHelper ↔
      ∃ c ∈ declared.filterMap Declaration.callable?, ⟨"pick", true⟩ ∈ bodyUses c) := by
  obtain ⟨final, hdraft, hfinal⟩ := Outcome.bind_eq_ok_iff.mp h
  obtain ⟨rfl, -⟩ := Prod.mk.inj (Except.ok.inj hfinal)
  have hholds := draft_holds hdraft
  rw [filterMap_callable?_declarations, getLast?_declarations]
  refine ⟨fun c hc => ?_, ?_⟩
  · rw [hholds.callables] at hc
    obtain ⟨op, -, rfl⟩ := List.mem_map.mp hc
    exact wellScoped_callable
  · simp only [calls_pick_iff]

/-- A harbour where ships are moved, with a parameter in each place and with data, and traced. -/
def harbour : Document where
  openapiVersion := "3.0.0"
  info := {}
  schemas := [("Move", .object [("speed", ⟨.primitive .number none [] false, true, false, false⟩)]
    .unsaid false)]
  operations :=
    [{ path := "/ships/\x7bid\x7d"
       method := .put
       operationId := some "moveShip"
       summary := none
       description := none
       tags := ["harbour"]
       parameters := [⟨"id", .path, true, none, false, none⟩,
         ⟨"berth", .query, false, none, false, none⟩, ⟨"pilot", .header, false, none, false, none⟩]
       requestBody := some ⟨true, none, [⟨"application/json", some (.reference "Move" false)⟩]⟩
       responses := [⟨"204", none, []⟩]
       isDeprecated := false },
     { path := "/ships/\x7bid\x7d"
       method := .trace
       operationId := some "traceShip"
       summary := none
       description := none
       tags := ["harbour"]
       parameters := [⟨"id", .path, true, none, false, none⟩]
       requestBody := none
       responses := [⟨"200", none, []⟩]
       isDeprecated := false }]
  notes := []

/-- What a method is called, and whether it picks parameters. -/
def pickSummary (c : Callable) : String × Bool := (c.name, picks c)

/-- The text of both methods of the harbour fits together, and the client has the helper. -/
theorem wellScoped_declarations_harbour : ∃ declared notes,
    declarations ⟨harbour.schemas⟩ {} false (Analysis.ofDocument ⟨harbour.schemas⟩ harbour).1 =
        .ok (declared, notes) ∧
      (declared.filterMap Declaration.callable?).map pickSummary =
        [("moveShip", true), ("traceShip", false)] ∧
      (∀ c ∈ declared.filterMap Declaration.callable?, WellScoped c) ∧
      declared.getLast? = some .pickHelper := by
  have hmade : (declarations ⟨harbour.schemas⟩ {} false
      (Analysis.ofDocument ⟨harbour.schemas⟩ harbour).1).toOption.map
        (fun made => (made.1.filterMap Declaration.callable?).map pickSummary) =
      some [("moveShip", true), ("traceShip", false)] := by decide +kernel
  rcases hdeclared : declarations ⟨harbour.schemas⟩ {} false
    (Analysis.ofDocument ⟨harbour.schemas⟩ harbour).1 with clash | ⟨declared, notes⟩
  · rw [hdeclared] at hmade
    cases hmade
  · rw [hdeclared] at hmade
    have hsummary : (declared.filterMap Declaration.callable?).map pickSummary =
        [("moveShip", true), ("traceShip", false)] := Option.some_inj.mp hmade
    obtain ⟨hscoped, hlast⟩ := wellScoped_declarations ⟨harbour.schemas⟩ {} false
      (Analysis.ofDocument ⟨harbour.schemas⟩ harbour).1 hdeclared
    obtain ⟨c, hc, hpicks⟩ : ∃ c ∈ declared.filterMap Declaration.callable?,
        pickSummary c = ("moveShip", true) := by
      rw [← List.mem_map, hsummary]
      exact List.mem_cons_self
    exact ⟨declared, notes, rfl, hsummary, hscoped,
      hlast.mpr ⟨c, hc, calls_pick_iff.mpr (Prod.mk.inj hpicks).2⟩⟩

end TypedClient.Client
