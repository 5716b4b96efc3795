import TypedClient.Proofs.Library.TypeNames
import TypedClient.Proofs.Mapping.Parts
import TypedClient.Proofs.Script.Comment
import TypedClient.Proofs.Script.TypeText
import TypedClient.Proofs.Source.Verbatim
import TypedClient.Proofs.Text.Indentation

/-!
# The layout of a type

The depth of the line on which a type starts shows in its text only as the margin of the lines
behind the first one.  Line feeds come from object types alone: property names and literals are
quoted, numbers hold none, and the names of types are identifiers.  So the text at any depth is the
text at depth zero, indented, and a type reads the same wherever it stands in a file.

* `typeText_add`: the text of a type that starts deeper is the text, indented.
* `infix_typeText_of_nested`: the text of a part stands in the text of the whole, as much deeper as
  there are object types around it.
* `Shows`: the types that a file writes down, with the depths of their lines.
* `LaidOut`, `laidOut_map`: layout is all that depends on the place of a mapped type.
-/

namespace TypedClient

open Text
open TypeExpr (Within Nested)

/-! ## Types with names on one line -/

/-- No name in the type holds a line feed, and no qualifier does. -/
def TypeExpr.NamesOnLine (type : TypeExpr) : Prop :=
  ∀ name qualifier view isBuiltin, Within (.named name qualifier view isBuiltin) type →
    '\n' ∉ name.toList ∧ '\n' ∉ qualifier.toList

/-- What holds of the names in a type holds of those in a part of it. -/
theorem TypeExpr.NamesOnLine.part {type whole : TypeExpr} (h : whole.NamesOnLine)
    (hpart : ∀ {t}, Within t type → Within t whole) : type.NamesOnLine :=
  fun name qualifier view isBuiltin hwithin => h name qualifier view isBuiltin (hpart hwithin)

/-- A type that is no name itself has its names in its parts. -/
theorem TypeExpr.NamesOnLine.of_parts {whole : TypeExpr}
    (hwhole : ∀ name qualifier view isBuiltin, whole ≠ .named name qualifier view isBuiltin)
    (hparts : ∀ t, Within t whole → t = whole ∨ ∃ part, part.NamesOnLine ∧ Within t part) :
    whole.NamesOnLine := by
  intro name qualifier view isBuiltin hwithin
  rcases hparts _ hwithin with heq | ⟨part, hpart, hwithin⟩
  · exact absurd heq.symm (hwhole name qualifier view isBuiltin)
  · exact hpart name qualifier view isBuiltin hwithin

namespace Source

/-! ## What holds no line feed -/

theorem feed_notMem_quoteChar (c : Char) : '\n' ∉ quoteChar c := by
  rw [quoteChar]
  split_ifs with hslash hquote hfeed
  · decide
  · decide
  · decide
  · exact fun h => hfeed (List.mem_singleton.mp h).symm

/-- In quotes a line feed is escaped. -/
theorem feed_notMem_quote (s : String) : '\n' ∉ (quote s).toList := by
  rw [quote, String.toList_ofList, quoteChars, List.mem_append, List.mem_cons, List.mem_flatMap,
    List.mem_singleton]
  rintro ((h | ⟨c, -, h⟩) | h)
  · exact absurd h (by decide)
  · exact feed_notMem_quoteChar c h
  · exact absurd h (by decide)

theorem indented_literal (n : ℕ) (v : Value) : indented n (literal v) = literal v := by
  cases v with
  | null => exact NoControl.indented_eq (by decide)
  | bool b => cases b <;> exact NoControl.indented_eq (by decide)
  | int i => exact (noControl_toString_int i).indented_eq
  | float x => exact (noControl_float x).indented_eq
  | _ => exact indented_eq_self (feed_notMem_quote _)

theorem indented_namedText {name qualifier : String} (hname : '\n' ∉ name.toList)
    (hqualifier : '\n' ∉ qualifier.toList) (n : ℕ) (view : Option View) (isBuiltin : Bool) :
    indented n (namedText name qualifier view isBuiltin) =
      namedText name qualifier view isBuiltin := by
  have hbuiltin : indented n (builtinText name) = builtinText name := by
    rw [builtinText]
    split
    · exact NoControl.indented_eq (by decide)
    · exact indented_eq_self hname
  have hplain : indented n (if isBuiltin then builtinText name else qualifier ++ name) =
      if isBuiltin then builtinText name else qualifier ++ name := by
    split
    · exact hbuiltin
    · rw [indented_append, indented_eq_self hname, indented_eq_self hqualifier]
  have hview (v : View) : indented n v.projection = v.projection := by
    cases v <;> exact NoControl.indented_eq (by decide)
  unfold namedText
  cases view with
  | none => exact hplain
  | some v =>
    simp (disch := decide) only [indented_append, NoControl.indented_eq, hplain, hview,
      indented_eq_self hqualifier]

theorem indented_primitiveText (n : ℕ) (type : PrimitiveType) :
    indented n (primitiveText type) = primitiveText type := by
  cases type <;> exact NoControl.indented_eq (by decide)

theorem indented_fieldKey (n : ℕ) (name : String) (isReadOnly isOptional : Bool) :
    indented n (fieldKey name isReadOnly isOptional) = fieldKey name isReadOnly isOptional := by
  have hfront : NoControl (if isReadOnly then "readonly " else "") := by
    cases isReadOnly <;> decide
  have hback : NoControl (if isOptional then "?" else "") := by cases isOptional <;> decide
  rw [fieldKey, indented_append, indented_append, hfront.indented_eq, hback.indented_eq,
    indented_eq_self (feed_notMem_quote name)]

/-! ## Around the text of a part -/

theorem indented_grouped (n : ℕ) (type : TypeExpr) (s : String) :
    indented n (grouped type s) = grouped type (indented n s) := by
  rw [grouped, grouped]
  split
  · simp (disch := decide) only [indented_append, NoControl.indented_eq]
  · rfl

theorem indented_taggedText (n : ℕ) (isReadOnly isWriteOnly isMarked : Bool) (s : String) :
    indented n (taggedText isReadOnly isWriteOnly isMarked s) =
      taggedText isReadOnly isWriteOnly isMarked (indented n s) := by
  have hreadOnly : NoControl (if isReadOnly then " & readonlyP" else "") := by
    cases isReadOnly <;> decide
  have hwriteOnly : NoControl (if isWriteOnly then " & writeonlyP" else "") := by
    cases isWriteOnly <;> decide
  rw [taggedText, taggedText]
  split
  · simp (disch := decide) only [indented_append, NoControl.indented_eq, hreadOnly.indented_eq,
      hwriteOnly.indented_eq]
  · rfl

/-! ## Lines of an object type -/

theorem margin_append (base depth : ℕ) : margin depth ++ margin base = margin (base + depth) := by
  rw [margin, margin, margin, ← String.ofList_append, List.replicate_append_replicate,
    Nat.mul_add, Nat.add_comm]

/-- A line of a text behind the first one, when the text starts deeper. -/
def shifted (depth : ℕ) (line : String) : String := margin depth ++ indented (2 * depth) line

/-- A line with a margin starts deeper, and is indented behind its margin. -/
theorem shifted_margin_append (base depth : ℕ) (s : String) :
    shifted depth (margin base ++ s) = margin (base + depth) ++ indented (2 * depth) s := by
  rw [shifted, indented_append, (noControl_margin base).indented_eq, ← String.append_assoc,
    margin_append]

theorem indented_joinLines (depth : ℕ) (first : String) (rest : List String) :
    indented (2 * depth) (joinWith "\n" (first :: rest)) =
      joinWith "\n" (indented (2 * depth) first :: rest.map (shifted depth)) :=
  indented_lines (2 * depth) first rest

/-! ## Types at a greater depth -/

mutual

/-- The text of a type that starts deeper is the text, indented. -/
theorem typeText_add (base depth : ℕ) : ∀ type : TypeExpr, type.NamesOnLine →
    typeText (base + depth) type = indented (2 * depth) (typeText base type)
  | .named name qualifier view isBuiltin, h => by
    obtain ⟨hname, hqualifier⟩ := h name qualifier view isBuiltin .refl
    rw [typeText, typeText, indented_namedText hname hqualifier]
  | .primitive type, h => by
    rw [typeText, typeText, indented_primitiveText]
  | .literals values, h => by
    have hliterals : (indented (2 * depth)) ∘ literal = literal :=
      funext fun v => indented_literal _ v
    rw [typeText, typeText, indented_joinWith, List.map_map, hliterals,
      NoControl.indented_eq (s := " | ") (by decide)]
  | .nullable inner, h => by
    rw [typeText, typeText, indented_append, NoControl.indented_eq (s := " | null") (by decide),
      typeText_add base depth inner (h.part .nullable)]
  | .array items, h => by
    rw [typeText, typeText, indented_append, indented_grouped,
      NoControl.indented_eq (s := "[]") (by decide),
      typeText_add base depth items (h.part .array)]
  | .sum members, h => by
    rw [typeText, typeText, indented_joinWith, NoControl.indented_eq (s := " | ") (by decide),
      memberTexts_add base depth members fun m hm => h.part (.sum hm)]
  | .product members, h => by
    rw [typeText, typeText, indented_joinWith, NoControl.indented_eq (s := " & ") (by decide),
      groupedTexts_add base depth members fun m hm => h.part (.product hm)]
  | .object fields index, h => by
    have hopen : indented (2 * depth) "\x7b" = "\x7b" := NoControl.indented_eq (by decide)
    have hclose : indented (2 * depth) "\x7d" = "\x7d" := NoControl.indented_eq (by decide)
    rw [typeText, typeText]
    split
    · exact (NoControl.indented_eq (by decide)).symm
    · rw [indented_joinLines, List.map_append, List.map_append, List.map_singleton, hopen,
        shifted_margin_append, hclose,
        fieldLines_add base depth fields fun f hf => h.part (.field hf),
        indexLines_add base depth index fun type htype => h.part fun hwithin =>
          TypeExpr.within_object_iff.mpr (Or.inr (Or.inr ⟨type, htype, hwithin⟩))]

theorem memberTexts_add (base depth : ℕ) : ∀ members : List TypeExpr,
    (∀ m ∈ members, m.NamesOnLine) →
      memberTexts (base + depth) members = (memberTexts base members).map (indented (2 * depth))
  | [], _ => by rw [memberTexts, memberTexts, List.map_nil]
  | type :: rest, h => by
    rw [List.forall_mem_cons] at h
    rw [memberTexts, memberTexts, List.map_cons, typeText_add base depth type h.1,
      memberTexts_add base depth rest h.2]

theorem groupedTexts_add (base depth : ℕ) : ∀ members : List TypeExpr,
    (∀ m ∈ members, m.NamesOnLine) →
      groupedTexts (base + depth) members = (groupedTexts base members).map (indented (2 * depth))
  | [], _ => by rw [groupedTexts, groupedTexts, List.map_nil]
  | type :: rest, h => by
    rw [List.forall_mem_cons] at h
    rw [groupedTexts, groupedTexts, List.map_cons, indented_grouped,
      typeText_add base depth type h.1, groupedTexts_add base depth rest h.2]

theorem fieldLines_add (base depth : ℕ) : ∀ fields : List (String × FieldOf TypeExpr),
    (∀ f ∈ fields, f.2.type.NamesOnLine) →
      fieldLines (base + depth) fields = (fieldLines base fields).map (shifted depth)
  | [], _ => by rw [fieldLines, fieldLines, List.map_nil]
  | (name, ⟨type, isOptional, isReadOnly, isWriteOnly, isMarked⟩) :: rest, h => by
    rw [List.forall_mem_cons] at h
    have htype := typeText_add (base + 1) depth type h.1
    rw [Nat.add_right_comm] at htype
    rw [fieldLines, fieldLines, List.map_cons, fieldLines_add base depth rest h.2, htype]
    simp only [String.append_assoc]
    rw [shifted_margin_append, Nat.add_right_comm]
    simp (disch := decide) only [indented_append, NoControl.indented_eq, indented_fieldKey,
      indented_taggedText]

theorem indexLines_add (base depth : ℕ) : ∀ index : Option TypeExpr,
    (∀ type ∈ index, type.NamesOnLine) →
      indexLines (base + depth) index = (indexLines base index).map (shifted depth)
  | none, _ => by rw [indexLines, indexLines, List.map_nil]
  | some type, h => by
    have htype := typeText_add (base + 1) depth type (h type rfl)
    rw [Nat.add_right_comm] at htype
    rw [indexLines, indexLines, List.map_singleton, htype]
    simp only [String.append_assoc]
    rw [shifted_margin_append, Nat.add_right_comm]
    simp (disch := decide) only [indented_append, NoControl.indented_eq]

end

/-! ## The text of a part within the text of the whole -/

theorem infix_grouped (type : TypeExpr) (s : String) : s.toList <:+: (grouped type s).toList := by
  rw [grouped]
  split
  · exact infix_append _ _ _
  · exact List.infix_rfl

theorem infix_taggedText (isReadOnly isWriteOnly isMarked : Bool) (s : String) :
    s.toList <:+: (taggedText isReadOnly isWriteOnly isMarked s).toList := by
  rw [taggedText]
  split
  · rw [String.append_assoc, String.append_assoc]
    exact infix_append _ _ _
  · exact List.infix_rfl

theorem exists_fieldLine (depth : ℕ) {fields : List (String × FieldOf TypeExpr)}
    {f : String × FieldOf TypeExpr} (hf : f ∈ fields) :
    ∃ line ∈ fieldLines depth fields, (typeText (depth + 1) f.2.type).toList <:+: line.toList := by
  induction fields with
  | nil => exact absurd hf List.not_mem_nil
  | cons g rest ih =>
    obtain ⟨name, ⟨type, isOptional, isReadOnly, isWriteOnly, isMarked⟩⟩ := g
    rw [fieldLines]
    rcases List.mem_cons.mp hf with rfl | hf
    · exact ⟨_, List.mem_cons_self, (infix_taggedText _ _ _ _).trans (infix_append _ _ _)⟩
    · obtain ⟨line, hline, hstands⟩ := ih hf
      exact ⟨line, List.mem_cons_of_mem _ hline, hstands⟩

/-- The lines of an object type stand in its text. -/
theorem infix_object (depth : ℕ) {fields : List (String × FieldOf TypeExpr)}
    {index : Option TypeExpr} {line : String}
    (h : line ∈ fieldLines depth fields ++ indexLines depth index) :
    line.toList <:+: (typeText depth (.object fields index)).toList := by
  rw [typeText]
  split
  · rename_i hempty
    rw [Bool.and_eq_true, List.isEmpty_iff, Option.isNone_iff_eq_none] at hempty
    rw [hempty.1, hempty.2, fieldLines, indexLines] at h
    exact absurd h List.not_mem_nil
  · rw [← List.append_assoc]
    exact infix_joinWith (List.mem_cons_of_mem _ (List.mem_append_left _ h)) _

/-- The text of a part stands in the text of the whole, as much deeper as there are object types
around it. -/
theorem infix_typeText_of_nested {t whole : TypeExpr} {levels : ℕ} (h : Nested t levels whole)
    (depth : ℕ) : (typeText (depth + levels) t).toList <:+: (typeText depth whole).toList := by
  induction h generalizing depth with
  | refl => exact List.infix_rfl
  | array _ ih =>
    rw [typeText, String.toList_append]
    exact ((ih depth).trans (infix_grouped _ _)).trans (List.prefix_append _ _).isInfix
  | @field levels fields index f hf _ ih =>
    obtain ⟨line, hline, hstands⟩ := exists_fieldLine depth hf
    rw [← Nat.add_assoc, Nat.add_right_comm]
    exact (ih (depth + 1)).trans (hstands.trans (infix_object depth (List.mem_append_left _ hline)))
  | @index levels fields type _ ih =>
    have hline : margin (depth + 1) ++ "[key: string]: " ++ typeText (depth + 1) type ++ ";" ∈
        indexLines depth (some type) := by
      rw [indexLines]
      exact List.mem_singleton_self _
    rw [← Nat.add_assoc, Nat.add_right_comm]
    exact (ih (depth + 1)).trans
      ((infix_append _ _ _).trans (infix_object depth (List.mem_append_right _ hline)))
  | sum hm _ ih =>
    rw [typeText, Script.memberTexts_eq_map]
    exact (ih depth).trans (infix_joinWith (List.mem_map_of_mem hm) _)
  | @product levels members m hm _ ih =>
    have hgrouped : grouped m (typeText depth m) ∈
        members.map fun m => grouped m (typeText depth m) :=
      List.mem_map_of_mem hm
    rw [typeText, Script.groupedTexts_eq_map]
    exact ((ih depth).trans (infix_grouped _ _)).trans (infix_joinWith hgrouped _)
  | nullable _ ih =>
    rw [typeText, String.toList_append]
    exact (ih depth).trans (List.prefix_append _ _).isInfix

/-! ## The types that a file shows -/

/-- The types that a file writes down, each with the depth of the line on which it starts: those
that the type library declares, and those of a client's methods. -/
inductive Shows (artifact : Artifact) : ℕ → TypeExpr → Prop
  | declared {name source : String} {type : TypeExpr}
      (hlibrary : artifact.name ≠ Generation.clientName)
      (h : .alias name type source ∈ artifact.declarations) : Shows artifact 0 type
  | parameters {c : Callable} {type : TypeExpr} (hclient : artifact.name = Generation.clientName)
      (hc : .callable c ∈ artifact.declarations) (h : c.parametersType = some type) :
      Shows artifact 1 type
  | data {c : Callable} {type : TypeExpr} (hclient : artifact.name = Generation.clientName)
      (hc : .callable c ∈ artifact.declarations) (h : c.dataType = some type) :
      Shows artifact 1 type
  | answer {c : Callable} (hclient : artifact.name = Generation.clientName)
      (hc : .callable c ∈ artifact.declarations) : Shows artifact 2 c.returnType

theorem infix_linesText_of_mem {line : String} {lines : List String} (h : line ∈ lines) :
    line.toList <:+: (linesText lines).toList := by
  rw [Script.toList_linesText]
  have hline : line.toList ++ ['\n'] ∈ (lines.map String.toList).map (· ++ ['\n']) :=
    List.mem_map_of_mem (List.mem_map_of_mem h)
  exact (List.prefix_append _ _).isInfix.trans (List.infix_of_mem_flatten hline)

theorem mem_separated {line : String} {lines : List String} {groups : List (List String)}
    (hline : line ∈ lines) (hlines : lines ∈ groups) : line ∈ separated groups := by
  induction groups with
  | nil => exact absurd hlines List.not_mem_nil
  | cons first rest ih =>
    cases rest with
    | nil =>
      obtain rfl := List.mem_singleton.mp hlines
      exact hline
    | cons second rest =>
      show line ∈ first ++ "" :: separated (second :: rest)
      rcases List.mem_cons.mp hlines with rfl | hlines
      · exact List.mem_append_left _ hline
      · exact List.mem_append_right _ (List.mem_cons_of_mem _ (ih hlines))

theorem infix_definitionsText {declarations : List Declaration} {name source : String}
    {type : TypeExpr} (h : .alias name type source ∈ declarations) :
    (typeText 0 type).toList <:+: (definitionsText declarations).toList := by
  have hlines : ["export type " ++ name ++ " = " ++ typeText 0 type ++ ";"] ∈
      declarations.filterMap definitionLines :=
    List.mem_filterMap.mpr ⟨_, h, rfl⟩
  exact (infix_append _ _ _).trans (infix_linesText_of_mem
    (List.mem_append_right _ (mem_separated (List.mem_singleton_self _) hlines)))

theorem infix_signatureText {c : Callable} {type : TypeExpr}
    (h : c.parametersType = some type ∨ c.dataType = some type) :
    (typeText 1 type).toList <:+: (signatureText c).toList := by
  have hlabelled (label : String) :
      (typeText 1 type).toList <:+: (label ++ typeText 1 type).toList := by
    rw [String.toList_append]
    exact (List.suffix_append _ _).isInfix
  rw [signatureText]
  rcases h with h | h
  · exact (hlabelled "params: ").trans (infix_joinWith (by simp [h]) _)
  · exact (hlabelled "data: ").trans (infix_joinWith (by simp [h]) _)

/-- A line of a method stands in the text of the client. -/
theorem infix_clientText_of_mem {declarations : List Declaration} {c : Callable} {line : String}
    (hc : .callable c ∈ declarations) (hline : line ∈ callableLines c) (className : String) :
    line.toList <:+: (clientText declarations className).toList :=
  (infix_linesText_of_mem hline).trans (Script.infix_clientText hc className)

theorem infix_clientText_of_signature {declarations : List Declaration} {c : Callable}
    {type : TypeExpr} (hc : .callable c ∈ declarations)
    (h : c.parametersType = some type ∨ c.dataType = some type) (className : String) :
    (typeText 1 type).toList <:+: (clientText declarations className).toList := by
  have hline : "  private " ++ c.name ++ "(" ++ signatureText c ++ ") \x7b" ∈ callableLines c := by
    simp [callableLines]
  exact ((infix_signatureText h).trans (infix_append _ _ _)).trans
    (infix_clientText_of_mem hc hline className)

theorem infix_clientText_of_answer {declarations : List Declaration} {c : Callable}
    (hc : .callable c ∈ declarations) (className : String) :
    (typeText 2 c.returnType).toList <:+: (clientText declarations className).toList := by
  have hline : "    return " ++ targetText c ++ "(" ∈ callableLines c := by
    simp [callableLines]
  exact ((infix_append _ _ _).trans (infix_append _ _ _)).trans
    (infix_clientText_of_mem hc hline className)

/-- The text of a type that a file shows stands in the text of the file. -/
theorem Shows.infix_artifactText {artifact : Artifact} {depth : ℕ} {type : TypeExpr}
    (h : Shows artifact depth type) (className : String) :
    (typeText depth type).toList <:+: (artifactText artifact className).toList := by
  rw [artifactText]
  cases h with
  | declared hlibrary h =>
    rw [if_neg hlibrary]
    exact infix_definitionsText h
  | parameters hclient hc h =>
    rw [if_pos hclient]
    exact infix_clientText_of_signature hc (Or.inl h) className
  | data hclient hc h =>
    rw [if_pos hclient]
    exact infix_clientText_of_signature hc (Or.inr h) className
  | answer hclient hc =>
    rw [if_pos hclient]
    exact infix_clientText_of_answer hc className

/-! ## Mapped types -/

/-- Layout is all that depends on the place of the type: at any depth it is written with its text at
depth zero, indented by two blanks for each step, and this is how it stands in every file, wherever
it is a part of a type that the file shows. -/
structure LaidOut (type : TypeExpr) : Prop where
  indents : ∀ depth, typeText depth type = indented (2 * depth) (typeText 0 type)
  embedded : ∀ artifact depth whole levels, Shows artifact depth whole →
    Nested type levels whole → ∀ className,
      (indented (2 * (depth + levels)) (typeText 0 type)).toList <:+:
        (artifactText artifact className).toList

theorem laidOut_of_namesOnLine {type : TypeExpr} (h : type.NamesOnLine) : LaidOut type := by
  have hindents : ∀ depth, typeText depth type = indented (2 * depth) (typeText 0 type) := by
    intro depth
    rw [← typeText_add 0 depth type h, Nat.zero_add]
  refine ⟨hindents, fun artifact depth whole levels hshows hnested className => ?_⟩
  rw [← hindents]
  exact (infix_typeText_of_nested hnested depth).trans (hshows.infix_artifactText className)

/-- A safe identifier stands on one line. -/
theorem feed_notMem_of_isSafe {s : String} (h : Identifier.IsSafe s) : '\n' ∉ s.toList :=
  fun hmem => absurd (h.2.1 _ hmem) (by decide)

/-- The names in mapped types stand on one line if the qualifier does. -/
theorem inherits_namesOnLine (lib : Library) {ctx : Mapping.Context}
    (hqualifier : '\n' ∉ ctx.qualifier.toList) :
    Mapping.Inherits lib ctx TypeExpr.NamesOnLine where
  reference := by
    intro target view name qualifier seen isBuiltin hwithin
    obtain ⟨rfl, rfl, rfl, rfl⟩ := TypeExpr.named.inj (TypeExpr.within_named_iff.mp hwithin)
    exact ⟨feed_notMem_of_isSafe (lib.isSafe_typeName target), hqualifier⟩
  day := by
    intro name qualifier view isBuiltin hwithin
    obtain ⟨rfl, rfl, rfl, rfl⟩ := TypeExpr.named.inj (TypeExpr.within_named_iff.mp hwithin)
    decide
  primitive _ := .of_parts nofun fun _ h => Or.inl (TypeExpr.within_primitive_iff.mp h)
  literals _ := .of_parts nofun fun _ h => Or.inl (TypeExpr.within_literals_iff.mp h)
  orNull := by
    intro flag type htype
    cases flag with
    | false => exact htype
    | true =>
      exact .of_parts nofun fun _ h =>
        (TypeExpr.within_nullable_iff.mp h).imp_right fun h => ⟨type, htype, h⟩
  array items hitems := .of_parts nofun fun _ h =>
    (TypeExpr.within_array_iff.mp h).imp_right fun h => ⟨items, hitems, h⟩
  object := by
    intro fields index hfields hindex
    refine .of_parts nofun fun t h => (TypeExpr.within_object_iff.mp h).imp_right ?_
    rintro (⟨f, hf, h⟩ | ⟨type, htype, h⟩)
    · exact ⟨f.2.type, hfields f hf, h⟩
    · exact ⟨type, hindex type htype, h⟩
  sum _ hmembers := .of_parts nofun fun _ h =>
    (TypeExpr.within_sum_iff.mp h).imp_right fun ⟨m, hm, h⟩ => ⟨m, hmembers m hm, h⟩
  product _ hmembers := .of_parts nofun fun _ h =>
    (TypeExpr.within_product_iff.mp h).imp_right fun ⟨m, hm, h⟩ => ⟨m, hmembers m hm, h⟩

/-- A mapped type is laid out so, if the qualifier of its names stands on one line. -/
theorem laidOut_map {lib : Library} {ctx : Mapping.Context} {location : String} {schema : Schema}
    {m : Mapping.Mapped TypeExpr} (h : Mapping.map lib ctx location schema = .ok m)
    (hqualifier : '\n' ∉ ctx.qualifier.toList) : LaidOut m.result :=
  laidOut_of_namesOnLine ((inherits_namesOnLine lib hqualifier).map schema h)

/-- A qualifier that is broken into lines is not indented. -/
example : typeText 1 (.named "Ship" "a\n." none false) ≠
    indented 2 (typeText 0 (.named "Ship" "a\n." none false)) := by decide

/-- A library of ships. -/
def fleet : Library := ⟨[("Ship", .untyped "" false)]⟩

/-- Berths are seen from outside, with ships in a namespace. -/
def berthContext : Mapping.Context where
  qualifier := "fleet."
  view := some .output
  wrapViews := true
  markModifiers := true

/-- A berth: a property and a permitted text with line feeds in them, an object type within a
property, and ships under all other names. -/
def berth : Schema :=
  .object
    [("first\nmate", ⟨.primitive .string none [.text "a\nb", .int 3] true, false, true, false⟩),
      ("quays", ⟨.array (.object
        [("length", ⟨.primitive .integer none [] false, true, false, false⟩)] .unsaid false) false,
        true, false, false⟩)]
    (.schema (.reference "Ship" false)) false

/-- The type of berths. -/
def berthType : TypeExpr :=
  .object
    [("first\nmate", ⟨.nullable (.literals [.text "a\nb", .int 3]), true, true, false, true⟩),
      ("quays", ⟨.array (.object
        [("length", ⟨.primitive .integer, false, false, false, false⟩)] none),
        false, false, false, false⟩)]
    (some (.named "Ship" "fleet." (some .output) false))

/-- The type of berths is laid out so: its line feeds are those of the layout, and at depth one each
has two blanks more behind it. -/
theorem laidOut_map_berth :
    Mapping.map fleet berthContext "" berth = .ok ⟨berthType, ["Ship"], []⟩ ∧
      '\n' ∉ berthContext.qualifier.toList ∧ LaidOut berthType ∧
      typeText 1 berthType = joinWith "\n"
        ["\x7b",
          "    readonly 'first\\nmate'?: ('a\\nb' | 3 | null) & readonlyP;",
          "    'quays': \x7b",
          "      'length': number;",
          "    \x7d[];",
          "    [key: string]: fleet.OutputView<fleet.Ship>;",
          "  \x7d"] := by
  have hends : fleet.Ends (.reference "Ship" false) (.untyped "" false) :=
    ⟨.single ⟨"Ship", false, rfl, rfl⟩, rfl⟩
  have hname : fleet.typeName "Ship" = "Ship" := by decide +kernel
  have hmap : Mapping.map fleet berthContext "" berth = .ok ⟨berthType, ["Ship"], []⟩ := by
    simp only [berth, Mapping.map, Mapping.mapProperties, Mapping.mapAdditional,
      Mapping.mapReference, Library.resolve_eq_ok_iff.mpr hends, hname]
    rfl
  have hqualifier : '\n' ∉ berthContext.qualifier.toList := by decide
  exact ⟨hmap, hqualifier, laidOut_map hmap hqualifier, by decide +kernel⟩

end Source

end TypedClient
