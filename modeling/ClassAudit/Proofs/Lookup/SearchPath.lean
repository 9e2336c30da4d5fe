import ClassAudit.Lookup.SearchPath
import Mathlib.Data.List.Basic

/-!
# The roots of a search path and the first hit

A variable lists its roots between colons.  `Lists` says this without taking the value apart: no
root holds a colon, there is at least one of them, and with a colon between each two they make up
the value.  There is just one such list, the one that a search path is made of (`lists_iff`).

`FirstHit` says which file a look-up finds: that of the first root under which there is one.  What
comes behind this root does not occur in it.
-/

namespace ClassAudit

namespace SearchPath

/-! ## Roots -/

/-- A variable lists some roots, in this order; if it is not set, it stands for the current
directory. -/
def Lists (setting : Option String) (roots : List String) : Prop :=
  match setting with
  | none => roots = ["."]
  | some value => roots ≠ [] ∧ (∀ root ∈ roots, ':' ∉ root.toList) ∧ ":".intercalate roots = value

/-- A part of a list that is split at some character is empty, or it is a part of the tail, with the
head in front if that is another character. -/
theorem mem_splitOn_cons {separator char : Char} {chars part : List Char}
    (hpart : part ∈ (char :: chars).splitOn separator) :
    part = [] ∨ part ∈ chars.splitOn separator ∨
      char ≠ separator ∧ ∃ first ∈ chars.splitOn separator, part = char :: first := by
  rw [List.splitOn_cons_eq_if_modifyHead] at hpart
  split at hpart
  · exact (List.mem_cons.mp hpart).imp_right .inl
  · rename_i hchar
    obtain ⟨first, others, hsplit⟩ :=
      List.exists_cons_of_ne_nil (List.splitOn_ne_nil separator chars)
    rw [hsplit, List.modifyHead_cons] at hpart
    rw [hsplit]
    obtain hfirst | hother := List.mem_cons.mp hpart
    · have hne : char ≠ separator := fun hsame => hchar (beq_iff_eq.mpr hsame)
      exact .inr (.inr ⟨hne, first, List.mem_cons_self .., hfirst⟩)
    · exact .inr (.inl (List.mem_cons_of_mem _ hother))

/-- No part of a split list holds what it was split at. -/
theorem not_mem_of_mem_splitOn {separator : Char} {chars part : List Char}
    (hpart : part ∈ chars.splitOn separator) : separator ∉ part := by
  induction chars generalizing part with
  | nil =>
    rw [List.splitOn_nil, List.mem_singleton] at hpart
    subst hpart
    exact List.not_mem_nil
  | cons char chars ih =>
    obtain rfl | hlater | ⟨hchar, first, hfirst, rfl⟩ := mem_splitOn_cons hpart
    · exact List.not_mem_nil
    · exact ih hlater
    · exact List.not_mem_cons_of_ne_of_not_mem hchar.symm (ih hfirst)

/-- A variable lists the roots of its search path and no others. -/
theorem lists_iff {setting : Option String} {roots : List String} :
    Lists setting roots ↔ roots = (ofVariable setting).roots := by
  cases setting with
  | none => exact Iff.rfl
  | some value =>
    refine ⟨fun hlists => ?_, ?_⟩
    · obtain ⟨hsome, hfree, hvalue⟩ := hlists
      have hchars : value.toList = [':'].intercalate (roots.map String.toList) := by
        rw [← hvalue, String.toList_intercalate]
        rfl
      have hsplit : value.toList.splitOn ':' = roots.map String.toList := by
        rw [hchars]
        exact List.splitOn_intercalate ':' (by simpa using hfree) (by simpa using hsome)
      simp [ofVariable, hsplit]
    · rintro rfl
      refine ⟨by simp [ofVariable, List.splitOn_ne_nil], fun root hroot => ?_, ?_⟩
      · obtain ⟨part, hpart, rfl⟩ := List.mem_map.mp hroot
        rw [String.toList_ofList]
        exact not_mem_of_mem_splitOn hpart
      · have hroots : (ofVariable (some value)).roots.map String.toList =
            value.toList.splitOn ':' := by
          simp [ofVariable]
        rw [← String.toList_inj, String.toList_intercalate, hroots]
        exact List.intercalate_splitOn ':'

/-! ## The first hit -/

/-- Of some roots, one is the first under which there is the file of a class; this is what the file
holds. -/
def FirstHit (files : FileStore) (className : String) (roots : List String) (root : String)
    (content : Bytes) : Prop :=
  ∃ before after, roots = before ++ root :: after ∧
    (∀ earlier ∈ before, files (candidate className earlier) = none) ∧
    files (candidate className root) = some content

variable {search : SearchPath} {files : FileStore} {className : String}

theorem locate?_eq_some_iff {path : String} {content : Bytes} :
    search.locate? files className = some (path, content) ↔
      ∃ root, path = candidate className root ∧
        FirstHit files className search.roots root content := by
  rw [locate?, candidates, List.findSome?_map, List.findSome?_eq_some_iff]
  simp only [Function.comp_apply, Option.map_eq_some_iff, Option.map_eq_none_iff, Prod.mk.injEq]
  constructor
  · rintro ⟨before, root, after, hroots, ⟨_, hfile, rfl, rfl⟩, hbefore⟩
    exact ⟨root, rfl, before, after, hroots, hbefore, hfile⟩
  · rintro ⟨root, rfl, before, after, hroots, hbefore, hfile⟩
    exact ⟨before, root, after, hroots, ⟨content, hfile, rfl, rfl⟩, hbefore⟩

/-- A class is read where the first hit is one that its layout accepts. -/
theorem result_readClass_eq_ok_iff {layout : Layout} {compiled : CompiledClass} :
    (search.readClass files layout className).result = .ok compiled ↔
      ∃ root content, FirstHit files className search.roots root content ∧
        (layout.read content).result = .ok compiled := by
  have hlocated := @locate?_eq_some_iff search files className
  unfold readClass openClass
  cases hlocate : search.locate? files className with
  | none =>
    simp only [hlocate, reduceCtorEq, false_iff, not_exists, not_and] at hlocated ⊢
    intro root content hhit
    exact absurd hhit (hlocated root rfl)
  | some located =>
    obtain ⟨path, content⟩ := located
    simp only
    constructor
    · intro hread
      obtain ⟨root, -, hhit⟩ := hlocated.mp hlocate
      exact ⟨root, content, hhit, hread⟩
    · rintro ⟨root, found, hhit, hread⟩
      have hfound := hlocated.mpr ⟨root, rfl, hhit⟩
      rw [hlocate] at hfound
      cases hfound
      exact hread

end SearchPath

end ClassAudit
