import ClassAudit.Lookup.FileTree
import Mathlib.Data.List.Basic

/-!
# Where paths lead

`Leads` says component by component where a path leads in a tree, and `IsFile` which paths are those
of regular files.  A walk follows just these rules (`walk_eq_some_iff`), so the files of a tree are
those of `IsFile` (`files_eq_some_iff`): a directory is none of them, whatever its name is.

A path can be followed in two parts (`leads_append_iff`).  If nothing in it leads upwards, it ends
below its start, at a place that does not depend on the tree (`Leads.eq_append`).
-/

namespace ClassAudit.FileTree

/-- The components of a path lead from one place to another.  Only an empty component can follow
what is not a directory. -/
inductive Leads (tree : FileTree) : Place → List String → Place → Prop where
  | here {place : Place} : Leads tree place [] place
  | empty {place target : Place} {rest : List String} (later : Leads tree place rest target) :
      Leads tree place ("" :: rest) target
  | stay {place target : Place} {rest : List String} (inside : tree.entry? place = some .directory)
      (later : Leads tree place rest target) : Leads tree place ("." :: rest) target
  | up {component : String} {parent target : Place} {rest : List String}
      (inside : tree.entry? (component :: parent) = some .directory)
      (later : Leads tree parent rest target) :
      Leads tree (component :: parent) (".." :: rest) target
  | enter {component : String} {place target : Place} {rest : List String}
      (inside : tree.entry? place = some .directory) (named : component ∉ ["", ".", ".."])
      (short : component.utf8ByteSize ≤ componentLimit)
      (later : Leads tree (component :: place) rest target) :
      Leads tree place (component :: rest) target

/-- A path is that of a regular file with some content: it starts from the current directory, a file
system can hold it, and its components lead to the file. -/
structure IsFile (tree : FileTree) (path : String) (content : Bytes) : Prop where
  relative : path.toList.head? ≠ some '/'
  printable : '\x00' ∉ path.toList
  short : path.utf8ByteSize < pathLimit
  found : ∃ target, tree.Leads [] (components path) target ∧
    tree.entry? target = some (.file content)

variable {tree : FileTree}

theorem Leads.walk {place target : Place} {path : List String}
    (hleads : tree.Leads place path target) : tree.walk place path = some target := by
  induction hleads with
  | here => rfl
  | empty _ ih => simpa [FileTree.walk] using ih
  | stay hinside _ ih => simpa [FileTree.walk, hinside] using ih
  | up hinside _ ih => simpa [FileTree.walk, hinside] using ih
  | enter hinside hnamed hshort _ ih =>
    simp only [List.mem_cons, List.not_mem_nil, or_false, not_or] at hnamed
    simpa [FileTree.walk, hinside, hnamed, Nat.not_lt.mpr hshort] using ih

/-- A walk arrives where the components lead. -/
theorem walk_eq_some_iff {place target : Place} {path : List String} :
    tree.walk place path = some target ↔ tree.Leads place path target := by
  refine ⟨fun hwalk => ?_, Leads.walk⟩
  induction path generalizing place with
  | nil =>
    cases hwalk
    exact .here
  | cons component rest ih =>
    unfold FileTree.walk at hwalk
    by_cases hempty : component = ""
    · subst hempty
      exact .empty (ih (by simpa using hwalk))
    by_cases hinside : tree.entry? place = some .directory
    · by_cases hdot : component = "."
      · subst hdot
        exact .stay hinside (ih (by simpa [hinside] using hwalk))
      by_cases hdots : component = ".."
      · subst hdots
        cases place with
        | nil => simp [hinside] at hwalk
        | cons last parent => exact .up hinside (ih (by simpa [hinside] using hwalk))
      have hlater : ¬ componentLimit < component.utf8ByteSize ∧
          tree.walk (component :: place) rest = some target := by
        simpa [hempty, hinside, hdot, hdots] using hwalk
      obtain ⟨hshort, hlater⟩ := hlater
      exact .enter hinside (by simp [hempty, hdot, hdots]) (Nat.not_lt.mp hshort) (ih hlater)
    · simp [hempty, hinside] at hwalk

/-- The files of a tree are its regular files. -/
theorem files_eq_some_iff {path : String} {content : Bytes} :
    tree.files path = some content ↔ tree.IsFile path content := by
  rw [files, read?]
  constructor
  · intro hread
    split at hread
    · cases hread
    · rename_i hplain
      obtain ⟨hrelative, hprintable, hshort⟩ : path.toList.head? ≠ some '/' ∧
          '\x00' ∉ path.toList ∧ ¬ pathLimit ≤ path.utf8ByteSize := by simpa using hplain
      refine ⟨hrelative, hprintable, Nat.not_le.mp hshort, ?_⟩
      split at hread
      · rename_i found hentry
        cases hread
        obtain ⟨target, hwalk, hfile⟩ := Option.bind_eq_some_iff.mp hentry
        exact ⟨target, walk_eq_some_iff.mp hwalk, hfile⟩
      · cases hread
  · rintro ⟨hrelative, hprintable, hshort, target, hleads, hfile⟩
    have hplain : ¬ (path.toList.head? = some '/' ∨ '\x00' ∈ path.toList ∨
        pathLimit ≤ path.utf8ByteSize) := by
      simp [hrelative, hprintable, hshort]
    rw [if_neg hplain, walk_eq_some_iff.mpr hleads, Option.bind_some, hfile]

/-! ## Paths in two parts -/

variable {start target : Place} {path first second : List String}

/-- A path in two parts leads to where the second part leads from the end of the first. -/
theorem leads_append_iff : tree.Leads start (first ++ second) target ↔
    ∃ middle, tree.Leads start first middle ∧ tree.Leads middle second target := by
  refine ⟨fun hleads => ?_, ?_⟩
  · induction first generalizing start with
    | nil => exact ⟨start, .here, hleads⟩
    | cons component rest ih =>
      cases hleads with
      | empty hlater =>
        obtain ⟨middle, hfirst, hsecond⟩ := ih hlater
        exact ⟨middle, .empty hfirst, hsecond⟩
      | stay hinside hlater =>
        obtain ⟨middle, hfirst, hsecond⟩ := ih hlater
        exact ⟨middle, .stay hinside hfirst, hsecond⟩
      | up hinside hlater =>
        obtain ⟨middle, hfirst, hsecond⟩ := ih hlater
        exact ⟨middle, .up hinside hfirst, hsecond⟩
      | enter hinside hnamed hshort hlater =>
        obtain ⟨middle, hfirst, hsecond⟩ := ih hlater
        exact ⟨middle, .enter hinside hnamed hshort hfirst, hsecond⟩
  · rintro ⟨middle, hfirst, hsecond⟩
    induction hfirst with
    | here => exact hsecond
    | empty _ ih => exact .empty (ih hsecond)
    | stay hinside _ ih => exact .stay hinside (ih hsecond)
    | up hinside _ ih => exact .up hinside (ih hsecond)
    | enter hinside hnamed hshort _ ih => exact .enter hinside hnamed hshort (ih hsecond)

/-- A path leads, if anywhere, to the place that its components name. -/
theorem Leads.eq_place (hleads : tree.Leads start path target) : target = place start path := by
  induction hleads with
  | here => rfl
  | empty _ ih => simpa [place] using ih
  | stay _ _ ih => simpa [place] using ih
  | up _ _ ih => simpa [place] using ih
  | enter _ hnamed _ _ ih =>
    simp only [List.mem_cons, List.not_mem_nil, or_false, not_or] at hnamed
    simpa [place, hnamed] using ih

/-- Without a way up, a path names a place below its start, and the same one below every start. -/
theorem place_eq_append (hdown : ".." ∉ path) (start : Place) :
    place start path = place [] path ++ start := by
  induction path generalizing start with
  | nil => rfl
  | cons component rest ih =>
    have hrest : ".." ∉ rest := List.not_mem_of_not_mem_cons hdown
    have hcomponent : component ≠ ".." := (List.ne_of_not_mem_cons hdown).symm
    by_cases hskip : component = "" ∨ component = "."
    · simp only [place, hskip, if_true]
      exact ih hrest start
    · simp only [place, hskip, hcomponent, if_false]
      calc place (component :: start) rest
          = place [] rest ++ component :: start := ih hrest _
        _ = (place [] rest ++ [component]) ++ start := by rw [List.append_assoc]; rfl
        _ = place [component] rest ++ start := by rw [ih hrest [component]]

theorem Leads.eq_append (hdown : ".." ∉ path) (hleads : tree.Leads start path target) :
    target = place [] path ++ start :=
  hleads.eq_place.trans (place_eq_append hdown start)

theorem components_append_slash (front back : String) :
    components (front ++ "/" ++ back) = components front ++ components back := by
  have hchars : (front ++ "/" ++ back).toList = front.toList ++ '/' :: back.toList := by
    simp
  rw [components, hchars, List.splitOn_append_cons_self, List.map_append]
  rfl

end ClassAudit.FileTree
