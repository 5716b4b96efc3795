import TypedClient.Proofs.Identifier.Safety
import TypedClient.TypeLibrary

/-!
# Members of an enumeration

The members of an enumeration are named one after the other, each after its own text in upper case.
Upper case and safe spelling make texts alike, and a name with a suffix may be what a later text is
spelled as, so that each name is the first one that all the names in front of it leave free.

* `map_value_members`, `map_name_members`: the values and the names of the members.
* `StandFor`, `members_standFor`: the members stand for the texts, under names that are safe and all
  different.
-/

namespace TypedClient.TypeLibrary

open Identifier (IsSafe FirstFree assign sanitize)

variable {values : List String}

theorem length_bases (values : List String) :
    (assign [] (values.map memberBase)).length = values.length := by
  simp

/-- There is one member for each text, in order. -/
theorem map_value_members (values : List String) :
    (members values).map EnumMember.value = values.map Value.text := by
  have hzip : ((assign [] (values.map memberBase)).zip values).map Prod.snd = values :=
    List.map_snd_zip (Nat.le_of_eq (length_bases values).symm)
  conv_rhs => rw [← hzip, List.map_map]
  rw [members, List.map_map]
  rfl

/-- The names of the members are those that are assigned. -/
theorem map_name_members (values : List String) :
    (members values).map EnumMember.name = assign [] (values.map memberBase) := by
  have hzip : ((assign [] (values.map memberBase)).zip values).map Prod.fst =
      assign [] (values.map memberBase) :=
    List.map_fst_zip (Nat.le_of_eq (length_bases values))
  conv_rhs => rw [← hzip]
  rw [members, List.map_map]
  rfl

/-- The name of a member is the first one for its text that the names in front of it leave free. -/
theorem firstFree_members {before after : List EnumMember} {member : EnumMember} {text : String}
    (h : members values = before ++ member :: after) (htext : member.value = .text text) :
    FirstFree (before.map EnumMember.name) (memberBase text) member.name := by
  have hnames := map_name_members values
  have hvalues := map_value_members values
  rw [h, List.map_append, List.map_cons] at hnames hvalues
  have hname : (assign [] (values.map memberBase))[before.length]? = some member.name := by
    rw [← hnames]
    simp
  have hvalue : (values.map Value.text)[before.length]? = some (.text text) := by
    rw [← hvalues]
    simp [htext]
  have hbase : (values.map memberBase)[before.length]? = some (memberBase text) := by
    rw [List.getElem?_map, Option.map_eq_some_iff] at hvalue ⊢
    obtain ⟨other, hother, heq⟩ := hvalue
    exact ⟨other, hother, congrArg memberBase (Value.text.inj heq)⟩
  have hfront : (assign [] (values.map memberBase)).take before.length =
      before.map EnumMember.name := by
    rw [← hnames]
    exact List.take_left' (List.length_map _)
  have hfirst := Identifier.firstFree_getElem?_assign hbase hname
  rwa [hfront, List.nil_append] at hfirst

/-- The members stand for a list of texts: one for each, in order and with the text as it is, under
names that are safe identifiers and all different, each of them the text in upper case, made safe,
or that with the least suffix from two that no earlier member has. -/
structure StandFor (members : List EnumMember) (values : List String) : Prop where
  map_value : members.map EnumMember.value = values.map Value.text
  nodup_name : (members.map EnumMember.name).Nodup
  isSafe : ∀ member ∈ members, IsSafe member.name
  firstFree : ∀ before member after, members = before ++ member :: after →
    ∀ text, member.value = .text text →
      FirstFree (before.map EnumMember.name)
        (sanitize (String.ofList (Text.upper text.toList))) member.name

/-- Every list of texts has members that stand for it. -/
theorem members_standFor (values : List String) : StandFor (members values) values where
  map_value := map_value_members values
  nodup_name := by
    rw [map_name_members]
    exact Identifier.nodup_assign [] _
  isSafe member hmember := by
    obtain ⟨before, after, h⟩ := List.append_of_mem hmember
    have hvalue : member.value ∈ values.map Value.text := by
      rw [← map_value_members]
      exact List.mem_map_of_mem hmember
    obtain ⟨text, -, htext⟩ := List.mem_map.mp hvalue
    exact (firstFree_members h htext.symm).isSafe (Identifier.isSafe_sanitize _)
  firstFree _ _ _ h _ htext := firstFree_members h htext

/-- A suffix may give what a later text is spelled as, and upper case may make a text longer. -/
example : (members ["a", "A", "a_2", "", "class", "2nd", "ß"]).map EnumMember.name =
    ["A", "A_2", "A_2_2", "_", "CLASS", "_2ND", "SS"] := by
  decide +kernel

end TypedClient.TypeLibrary
