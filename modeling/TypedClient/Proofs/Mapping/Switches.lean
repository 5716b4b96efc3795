import TypedClient.Proofs.Library.TypeNames
import TypedClient.Proofs.Mapping.Fields
import TypedClient.Proofs.Mapping.Presentation

/-!
# What the switches of a context show

Analysis maps a schema once to learn which names it refers to, and assembly maps it again in the
context of the file that is written.  The two runs agree on everything but presentation, and what
they present can be told from the context alone: how names are qualified, which of them are seen
through the view, and which properties are marked.

A type holds only the type names of schemas, not the schemas.  A type name tells which schema was
referred to, since different schemas have different type names.

* `PresentsName`, `Presented`: names and properties look as the context says.
* `presented_map`: in what mapping gives they do.
* `map_presentation`: two contexts that differ in their switches only.
-/

namespace TypedClient

/-- The end of a chain of references is the only one. -/
theorem Library.Ends.unique {lib : Library} {a s t : Schema} (hs : lib.Ends a s)
    (ht : lib.Ends a t) : s = t := by
  have hresolve : lib.resolve a none = .ok s := Library.resolve_eq_ok_iff.mpr hs
  rw [Library.resolve_eq_ok_iff.mpr ht] at hresolve
  exact (Except.ok.inj hresolve).symm

namespace Mapping

open TypeExpr (blank HasField Within)

variable {lib : Library} {ctx : Context}

/-- A name is presented as the context says: it is qualified, it is the type name of a schema, and
it is seen through the view of the context if the context wraps views and the schema is no
enumeration. -/
structure PresentsName (lib : Library) (ctx : Context) (name qualifier : String)
    (view : Option View) : Prop where
  qualifier_eq : qualifier = ctx.qualifier
  exists_target : ∃ target concrete, name = lib.typeName target ∧
    lib.Ends (.reference target false) concrete
  view_iff : ∀ target concrete, name = lib.typeName target →
    lib.Ends (.reference target false) concrete → ∀ v, view = some v ↔
      ctx.wrapViews = true ∧ ctx.view = some v ∧ concrete.isEnumeration = false

/-- Everything in the type is presented as the context says: the names of schemas, and the
properties, which are marked if the context marks and they belong to one direction. -/
structure Presented (lib : Library) (ctx : Context) (type : TypeExpr) : Prop where
  names : ∀ name qualifier view, Within (.named name qualifier view false) type →
    PresentsName lib ctx name qualifier view
  marks : ∀ f, HasField f type → (f.2.isMarked = true ↔
    ctx.markModifiers = true ∧ (f.2.isReadOnly = true ∨ f.2.isWriteOnly = true))

/-- A name that mapping emits is presented as the context says. -/
theorem Emits.presentsName {references : NameSet} {name qualifier : String} {view : Option View}
    (h : Emits lib ctx references (.named name qualifier view false)) :
    PresentsName lib ctx name qualifier view := by
  obtain ⟨-, hqualifier, target, nullable, place, concrete, hresolve, rfl, rfl⟩ := h
  rw [Library.resolve_reference_nullable _ _ nullable false] at hresolve
  have hends : lib.Ends (.reference target false) concrete := Library.resolve_eq_ok_iff.mp hresolve
  refine ⟨hqualifier, ⟨target, concrete, rfl, hends⟩, fun twin other hname hother v => ?_⟩
  -- the name tells the target, and the target the schema that its chain ends in
  have hresolveTwin : lib.resolve (.reference twin false) none = .ok other :=
    Library.resolve_eq_ok_iff.mpr hother
  obtain rfl : target = twin := Library.typeName_injOn (Library.mem_names_of_resolve hresolve)
    (Library.mem_names_of_resolve hresolveTwin) hname
  obtain rfl : concrete = other := hends.unique hother
  exact Context.viewOf_eq_some_iff

/-- What mapping gives is presented as the context says. -/
theorem presented_map {location : String} {schema : Schema} {m : Mapped TypeExpr}
    (h : map lib ctx location schema = .ok m) : Presented lib ctx m.result where
  names name qualifier view hwithin := ((sound_map schema h).emits _ hwithin).presentsName
  marks f hf := by
    obtain ⟨p, -, hmakes⟩ := exists_property_of_field schema h f hf
    rw [hmakes.isMarked, hmakes.isReadOnly, hmakes.isWriteOnly, Bool.and_eq_true, Bool.or_eq_true]

/-- Two contexts that see a schema through one view, whatever their switches, fail alike, or give
types that refer to the same names, are noted alike, are the same without presentation, and are each
presented as their context says. -/
theorem map_presentation (lib : Library) (ctx other : Context) (view : Option View)
    (location : String) (schema : Schema) :
    (∃ error, map lib (ctx.through view) location schema = .error error ∧
      map lib (other.through view) location schema = .error error) ∨
    ∃ m n, map lib (ctx.through view) location schema = .ok m ∧
      map lib (other.through view) location schema = .ok n ∧
      m.references = n.references ∧ m.notes = n.notes ∧ blank m.result = blank n.result ∧
      Presented lib (ctx.through view) m.result ∧ Presented lib (other.through view) n.result := by
  have hview : (ctx.through view).view = (other.through view).view := rfl
  rcases outcome_of_view_eq hview location schema with
    hfails | ⟨m, n, hm, hn, hreferences, hnotes, hblank⟩
  · exact Or.inl hfails
  · exact Or.inr ⟨m, n, hm, hn, hreferences, hnotes, hblank, presented_map hm, presented_map hn⟩

end Mapping

end TypedClient
