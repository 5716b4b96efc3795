import TypedClient.Library
import TypedClient.Proofs.Identifier.Safety
import TypedClient.Proofs.Named

/-!
# The type names of a library

The type names are assigned to the schemas in the order of the document, so the list of them is the
list that `Identifier.assign` makes of the sanitized names.  What assignment promises then holds of
the type names: they are all different, and none is a name that the library declares itself.

* `names_typeNames`, `get?_typeNames`: the schemas of a library are those with a type name.
* `map_typeName`: the type names in the order of the schemas.
* `typeName_injOn`: different schemas have different type names.
* `count_typeName`: every schema's type name stands once among them.
* `isSafe_typeName`: type names are safe, in every library.
* `NamesSafely`, `namesSafely`: type names are safe, and each is the first one that was free.
-/

namespace TypedClient.Library

variable {lib : Library}

/-- There are as many type names as schemas. -/
theorem length_names (lib : Library) : lib.schemas.names.length =
    (Identifier.assign libraryNames (lib.schemas.names.map Identifier.sanitize)).length := by
  rw [Identifier.length_assign, List.length_map]

/-- The schemas of a library are those with a type name. -/
theorem names_typeNames : lib.typeNames.names = lib.schemas.names :=
  List.map_fst_zip (Nat.le_of_eq lib.length_names)

/-- The type name of a schema is the one that was assigned to it. -/
theorem get?_typeNames {n : String} (hn : n ∈ lib.schemas.names) :
    lib.typeNames.get? n = some (lib.typeName n) := by
  rw [typeName]
  cases hget : lib.typeNames.get? n with
  | none =>
    rw [Named.get?_eq_none_iff, names_typeNames] at hget
    exact absurd hn hget
  | some type => rfl

/-- The type names in the order of the schemas. -/
theorem map_typeName (hlib : lib.schemas.names.Nodup) :
    lib.schemas.names.map lib.typeName =
      Identifier.assign libraryNames (lib.schemas.names.map Identifier.sanitize) :=
  Named.map_get?_zip hlib lib.length_names Identifier.sanitize

/-- No type name stands twice. -/
theorem nodup_map_typeName (hlib : lib.schemas.names.Nodup) :
    (lib.schemas.names.map lib.typeName).Nodup := by
  rw [map_typeName hlib]
  exact Identifier.nodup_assign _ _

/-- Different schemas have different type names. -/
theorem typeName_injOn {m n : String} (hm : m ∈ lib.schemas.names) (hn : n ∈ lib.schemas.names)
    (h : lib.typeName m = lib.typeName n) : m = n := by
  have hnodup : (lib.typeNames.map Prod.snd).Nodup := by
    rw [typeNames, List.map_snd_zip (Nat.le_of_eq lib.length_names.symm)]
    exact Identifier.nodup_assign _ _
  have hmem : (m, lib.typeName m) ∈ lib.typeNames := Named.mem_of_get? (get?_typeNames hm)
  have hmem' : (n, lib.typeName n) ∈ lib.typeNames := Named.mem_of_get? (get?_typeNames hn)
  exact (Prod.mk.inj (List.inj_on_of_nodup_map hnodup hmem hmem' h)).1

/-- The type name of a schema stands once among the type names. -/
theorem count_typeName (hlib : lib.schemas.names.Nodup) {n : String}
    (hn : n ∈ lib.schemas.names) :
    (lib.schemas.names.map lib.typeName).count (lib.typeName n) = 1 :=
  List.count_eq_one_of_mem (nodup_map_typeName hlib) (List.mem_map_of_mem hn)

/-- A type name of the library is none of the names that the library declares itself. -/
theorem typeName_notMem_libraryNames (hlib : lib.schemas.names.Nodup) {n : String}
    (hn : n ∈ lib.schemas.names) : lib.typeName n ∉ libraryNames := by
  have hmem : lib.typeName n ∈
      Identifier.assign libraryNames (lib.schemas.names.map Identifier.sanitize) := by
    rw [← map_typeName hlib]
    exact List.mem_map_of_mem hn
  exact Identifier.notMem_of_mem_assign hmem

/-! ## Safe names -/

/-- Every type name is safe, also that of a name outside the library. -/
theorem isSafe_typeName (lib : Library) (n : String) : Identifier.IsSafe (lib.typeName n) := by
  rw [typeName]
  cases hget : lib.typeNames.get? n with
  | none => exact Identifier.isSafe_sanitize n
  | some name =>
    have hname : name ∈
        Identifier.assign libraryNames (lib.schemas.names.map Identifier.sanitize) :=
      (List.of_mem_zip (Named.mem_of_get? hget)).2
    exact Identifier.isSafe_of_mem_assign
      (List.forall_mem_map.mpr fun m _ => Identifier.isSafe_sanitize m) hname

/-- A type name is the first one for the schema's name that is free behind the names of the library
itself and the type names of the schemas in front. -/
theorem firstFree_typeName (hlib : lib.schemas.names.Nodup) {before after : List String}
    {n : String} (h : lib.schemas.names = before ++ n :: after) :
    Identifier.FirstFree (libraryNames ++ before.map lib.typeName) (Identifier.sanitize n)
      (lib.typeName n) := by
  have hassign := map_typeName hlib
  have hlength : (before.map lib.typeName).length = before.length := List.length_map _
  rw [h, List.map_append, List.map_append, List.map_cons, List.map_cons] at hassign
  have hname : (Identifier.assign libraryNames (before.map Identifier.sanitize ++
      Identifier.sanitize n :: after.map Identifier.sanitize))[before.length]? =
      some (lib.typeName n) := by
    rw [← hassign, List.getElem?_append_right (Nat.le_of_eq hlength), hlength, Nat.sub_self]
    rfl
  have hbase : (before.map Identifier.sanitize ++
      Identifier.sanitize n :: after.map Identifier.sanitize)[before.length]? =
      some (Identifier.sanitize n) := by
    have hbases : (before.map Identifier.sanitize).length = before.length := List.length_map _
    rw [List.getElem?_append_right (Nat.le_of_eq hbases), hbases, Nat.sub_self]
    rfl
  have hfirst := Identifier.firstFree_getElem?_assign hbase hname
  rw [← hassign, List.take_left' hlength] at hfirst
  exact hfirst

/-- The type names of a library are fit to be declared: every schema has one, no two are alike, all
are safe identifiers that the library does not declare itself, and each is the first one for the
schema's name that was free. -/
structure NamesSafely (lib : Library) : Prop where
  named : ∀ n ∈ lib.schemas.names, lib.typeNames.get? n = some (lib.typeName n)
  injective : ∀ m ∈ lib.schemas.names, ∀ n ∈ lib.schemas.names,
    lib.typeName m = lib.typeName n → m = n
  isSafe : ∀ n ∈ lib.schemas.names, Identifier.IsSafe (lib.typeName n)
  undeclared : ∀ n ∈ lib.schemas.names, lib.typeName n ∉ libraryNames
  firstFree : ∀ before n after, lib.schemas.names = before ++ n :: after →
    Identifier.FirstFree (libraryNames ++ before.map lib.typeName) (Identifier.sanitize n)
      (lib.typeName n)
  /-- A name that is free when it is made safe is kept. -/
  kept : ∀ before n after, lib.schemas.names = before ++ n :: after →
    Identifier.sanitize n ∉ libraryNames ++ before.map lib.typeName →
      lib.typeName n = Identifier.sanitize n

/-- Schemas with different names are named safely. -/
theorem namesSafely (lib : Library) (hlib : lib.schemas.names.Nodup) : NamesSafely lib where
  named := fun _ hn => get?_typeNames hn
  injective := fun _ hm _ hn h => typeName_injOn hm hn h
  isSafe := by
    intro n hn
    obtain ⟨before, after, h⟩ := List.append_of_mem hn
    exact (firstFree_typeName hlib h).isSafe (Identifier.isSafe_sanitize n)
  undeclared := fun _ hn => typeName_notMem_libraryNames hlib hn
  firstFree := fun _ _ _ h => firstFree_typeName hlib h
  kept := fun _ _ _ h hfree => (firstFree_typeName hlib h).eq_base hfree

/-- Schemas whose names collide once they are made safe, with each other, with a suffixed name, with
a reserved word and with a name of the library itself. -/
def kennel : Library where
  schemas := ["pet-item", "pet_item_2", "pet.item", "pet item", "Date", "class", "2fa", ""].map
    fun name => (name, .untyped "" false)

/-- The schemas of the kennel are named safely; a suffix that an earlier name has is passed over. -/
theorem namesSafely_kennel :
    kennel.schemas.names.Nodup ∧ NamesSafely kennel ∧
      kennel.typeNames.map Prod.snd =
        ["pet_item", "pet_item_2", "pet_item_3", "pet_item_4", "Date_2", "class_", "_2fa", "_"] :=
  have hnames : kennel.schemas.names.Nodup := by decide
  ⟨hnames, namesSafely kennel hnames, by decide +kernel⟩

end TypedClient.Library
