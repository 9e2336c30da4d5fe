import ClassAudit.Proofs.Lookup.FileTree
import ClassAudit.Proofs.Lookup.FirstRoot

/-!
# What class names can reach

A class name stands for a path in which every dot has become a slash.  So a name that begins with a
dot or with a slash stands for an absolute path, and an absolute path stands by itself: the roots of
a search path do not count.  All other names are `Ordinary`, and their files are looked for below
the roots only.

The reason is that nothing in the path of a class leads upwards.  The only dot that is left is the
one of its ending, which stands in the last component together with at least five letters
(`component_resourceName_cases`), so no component is `.` or `..`.  Where such a path leads in a tree
is fixed up to the place at which it starts (`FileTree.Leads.eq_append`), and a candidate leads
there by way of its root (`leads_candidate`).

`confined_exactly_if_ordinary` states both sides.
-/

namespace ClassAudit.SearchPath

open FileTree (components)

/-! ## Resource names -/

variable {className first second root : String}

/-- A class name is ordinary if it begins neither with a dot nor with a slash. -/
def Ordinary (className : String) : Prop :=
  className.toList.head? ≠ some '.' ∧ className.toList.head? ≠ some '/'

/-- A class name with a slash in place of every dot. -/
def slashed (className : String) : String :=
  .ofList (className.toList.map fun char => if char = '.' then '/' else char)

/-- What is put between a root and a path below it. -/
def separator (root : String) : String :=
  if root = "" ∨ root.toList.getLast? = some '/' then "" else "/"

theorem resourceName_eq (className : String) :
    resourceName className = slashed className ++ ".class" := by
  rw [resourceName, String.ofList_append]
  rfl

theorem dot_not_mem_slashed (className : String) : '.' ∉ (slashed className).toList := by
  rw [slashed, String.toList_ofList, List.mem_map]
  rintro ⟨char, -, hdot⟩
  split at hdot
  · cases hdot
  · next hchar => exact hchar hdot

/-- Where no slash stands already, nothing is lost. -/
theorem slashed_inj (hfirst : '/' ∉ first.toList) (hsecond : '/' ∉ second.toList)
    (hslashed : slashed first = slashed second) : first = second := by
  have hdotted {className : String} (hnone : '/' ∉ className.toList) :
      (slashed className).toList.map (fun char => if char = '/' then '.' else char) =
        className.toList := by
    rw [slashed, String.toList_ofList, List.map_map]
    refine (List.map_congr_left fun char hchar => ?_).trans (List.map_id _)
    have hslash : char ≠ '/' := by
      rintro rfl
      exact hnone hchar
    by_cases hdot : char = '.' <;> simp [hdot, hslash]
  rw [← String.toList_inj, ← hdotted hfirst, ← hdotted hsecond, hslashed]

/-- The resource name of a class is absolute if its name is not ordinary. -/
theorem head?_resourceName_iff :
    (resourceName className).toList.head? = some '/' ↔ ¬ Ordinary className := by
  rw [resourceName, String.toList_ofList, Ordinary]
  cases className.toList with
  | nil => decide
  | cons char chars =>
    by_cases hdot : char = '.' <;> simp [hdot]

/-- The parts between slashes of a text in which the only dot is that of its ending. -/
theorem part_cases {chars part : List Char} (hchars : '.' ∉ chars)
    (hpart : part ∈ (chars ++ ".class".toList).splitOn '/') :
    '.' ∉ part ∨ ∃ front, part = front ++ ".class".toList := by
  induction chars generalizing part with
  | nil =>
    have hwhole : ".class".toList.splitOn '/' = [".class".toList] := by decide
    rw [List.nil_append, hwhole, List.mem_singleton] at hpart
    exact .inr ⟨[], hpart⟩
  | cons char chars ih =>
    have hlater : '.' ∉ chars := List.not_mem_of_not_mem_cons hchars
    obtain rfl | hpart | ⟨-, first, hfirst, rfl⟩ := mem_splitOn_cons hpart
    · exact .inl List.not_mem_nil
    · exact ih hlater hpart
    · have hdot : '.' ≠ char := List.ne_of_not_mem_cons hchars
      obtain hnone | ⟨front, rfl⟩ := ih hlater hfirst
      · exact .inl (List.not_mem_cons_of_ne_of_not_mem hdot hnone)
      · exact .inr ⟨char :: front, rfl⟩

/-- A component of a resource name has no dot, or ends as the name does. -/
theorem component_resourceName_cases {component : String}
    (hcomponent : component ∈ components (resourceName className)) :
    '.' ∉ component.toList ∨ ∃ front, component = front ++ ".class" := by
  obtain ⟨part, hpart, rfl⟩ := List.mem_map.mp hcomponent
  rw [resourceName_eq, String.toList_append] at hpart
  obtain hnone | ⟨front, rfl⟩ := part_cases (dot_not_mem_slashed className) hpart
  · rw [String.toList_ofList]
    exact .inl hnone
  · refine .inr ⟨.ofList front, ?_⟩
    rw [String.ofList_append, String.ofList_toList]

/-- No component of a resource name stays where it is or leads upwards. -/
theorem component_resourceName_ne {component : String}
    (hcomponent : component ∈ components (resourceName className)) :
    component ≠ "." ∧ component ≠ ".." := by
  obtain hnone | ⟨front, rfl⟩ := component_resourceName_cases hcomponent
  · refine ⟨?_, ?_⟩ <;> rintro rfl <;> exact hnone (by decide)
  · -- the ending alone is longer than two dots
    have hlonger {dots : String} (hshort : dots.toList.length < 6) : front ++ ".class" ≠ dots := by
      rintro rfl
      rw [String.toList_append, List.length_append] at hshort
      exact absurd hshort (Nat.not_lt.mpr (Nat.le_add_left 6 _))
    exact ⟨hlonger (by decide), hlonger (by decide)⟩

/-! ## Candidates -/

theorem candidate_of_ordinary (hordinary : Ordinary className) (root : String) :
    candidate className root = root ++ separator root ++ resourceName className := by
  have hrelative : ¬ (resourceName className).toList.head? = some '/' := by
    rw [head?_resourceName_iff]
    exact not_not_intro hordinary
  rw [candidate, join, if_neg hrelative, separator]
  split
  · rw [String.append_empty]
  · rfl

theorem candidate_of_not_ordinary (habsolute : ¬ Ordinary className) (root : String) :
    candidate className root = resourceName className := by
  rw [candidate, join, if_pos (head?_resourceName_iff.mpr habsolute)]

/-- Two dots at the front make a path absolute; two dots behind a letter only leave a component
empty. -/
example : candidate "..Foo" "lib" = "//Foo.class" ∧
    candidate "a..Foo" "lib" = "lib/a//Foo.class" := by decide

/-- Two ordinary names share their candidate where a slash in one is a dot in the other. -/
theorem candidate_eq_iff (hfirst : Ordinary first) (hsecond : Ordinary second) :
    candidate first root = candidate second root ↔ slashed first = slashed second := by
  rw [candidate_of_ordinary hfirst, candidate_of_ordinary hsecond, String.append_right_inj,
    resourceName_eq, resourceName_eq, String.append_left_inj]

/-- An absolute path is looked up once, whatever the roots are. -/
theorem locate?_of_not_ordinary (habsolute : ¬ Ordinary className) {search : SearchPath}
    (hroots : search.roots ≠ []) (files : FileStore) :
    search.locate? files className =
      (files (resourceName className)).map (resourceName className, ·) := by
  obtain ⟨roots⟩ := search
  induction roots with
  | nil => exact absurd rfl hroots
  | cons root later ih =>
    rw [locate?_cons, candidate_of_not_ordinary habsolute]
    cases hfile : files (resourceName className) with
    | some content => rfl
    | none =>
      cases later with
      | nil => rfl
      | cons next others =>
        rw [ih (List.cons_ne_nil _ _), hfile]

/-- A candidate leads to where the resource name leads from the place of the root. -/
theorem leads_candidate {tree : FileTree} {target : FileTree.Place}
    (hordinary : Ordinary className)
    (hleads : tree.Leads [] (components (candidate className root)) target) :
    ∃ place, tree.Leads [] (components root) place ∧
      tree.Leads place (components (resourceName className)) target := by
  rw [candidate_of_ordinary hordinary, separator] at hleads
  split at hleads
  · next hclosed =>
    rw [String.append_empty] at hleads
    obtain rfl | hslash := hclosed
    · rw [String.empty_append] at hleads
      exact ⟨[], .empty .here, hleads⟩
    · -- the slash at the end of the root stands for an empty component
      obtain ⟨front, hfront⟩ := List.getLast?_eq_some_iff.mp hslash
      obtain rfl : root = String.ofList front ++ "/" := by
        rw [← String.toList_inj, hfront, String.toList_append, String.toList_ofList]
        rfl
      rw [FileTree.components_append_slash, FileTree.leads_append_iff] at hleads
      obtain ⟨place, hroot, hbelow⟩ := hleads
      refine ⟨place, ?_, hbelow⟩
      rw [← String.append_empty (s := String.ofList front ++ "/"),
        FileTree.components_append_slash, FileTree.leads_append_iff]
      exact ⟨place, hroot, .empty .here⟩
  · rw [FileTree.components_append_slash] at hleads
    exact FileTree.leads_append_iff.mp hleads

/-- What is opened for an ordinary name is a file below a root, at the place that the name gives. -/
theorem confined_of_openClass {search : SearchPath} {tree : FileTree} {content : Bytes}
    {log : List Event} (hordinary : Ordinary className)
    (hopened : search.openClass tree.files className = ⟨.ok content, log⟩) :
    ∃ root ∈ search.roots, ∃ place, tree.Leads [] (components root) place ∧
      tree.entry? (FileTree.place [] (components (resourceName className)) ++ place) =
        some (.file content) := by
  unfold openClass at hopened
  cases hlocate : search.locate? tree.files className with
  | none =>
    rw [hlocate] at hopened
    cases hopened
  | some located =>
    obtain ⟨path, found⟩ := located
    rw [hlocate] at hopened
    cases hopened
    obtain ⟨root, rfl, before, after, hroots, -, hfile⟩ := locate?_eq_some_iff.mp hlocate
    obtain ⟨target, hleads, hentry⟩ := (FileTree.files_eq_some_iff.mp hfile).found
    obtain ⟨place, hroot, hbelow⟩ := leads_candidate hordinary hleads
    have hdown : ".." ∉ components (resourceName className) :=
      fun hup => (component_resourceName_ne hup).2 rfl
    have hlisted : root ∈ search.roots := by
      rw [hroots]
      exact List.mem_append_right _ (List.mem_cons_self ..)
    refine ⟨root, hlisted, place, hroot, ?_⟩
    rw [← hbelow.eq_append hdown]
    exact hentry

/-- **Look-ups are confined to their roots exactly for ordinary names.**  The candidate of an
ordinary name is the root, a slash where one is missing, and the resource name; no component of a
resource name is a dot or two dots; and two ordinary names share a candidate if and only if they
agree up to dots and slashes, so without slashes never.  Hence the file that is opened lies below a
root, at the place that the name gives.  For any other name the resource name is absolute and is the
only candidate, so that all search paths with a root give the same answers. -/
theorem confined_exactly_if_ordinary :
    (∀ className root, Ordinary className →
      candidate className root = root ++ separator root ++ resourceName className) ∧
    (∀ className, ∀ component ∈ components (resourceName className),
      component ≠ "." ∧ component ≠ "..") ∧
    (∀ first second root, Ordinary first → Ordinary second →
      (candidate first root = candidate second root ↔ slashed first = slashed second) ∧
        ('/' ∉ first.toList → '/' ∉ second.toList →
          candidate first root = candidate second root → first = second)) ∧
    (∀ className (search : SearchPath) (tree : FileTree) content log, Ordinary className →
      search.openClass tree.files className = ⟨.ok content, log⟩ →
      ∃ root ∈ search.roots, ∃ place, tree.Leads [] (components root) place ∧
        tree.entry? (FileTree.place [] (components (resourceName className)) ++ place) =
          some (.file content)) ∧
    ∀ className, ¬ Ordinary className →
      (resourceName className).toList.head? = some '/' ∧
        (∀ root, candidate className root = resourceName className) ∧
        ∀ (search other : SearchPath) (files : FileStore), search.roots ≠ [] → other.roots ≠ [] →
          search.answers files className = other.answers files className := by
  refine ⟨fun className root hordinary => candidate_of_ordinary hordinary root,
    fun className component hcomponent => component_resourceName_ne hcomponent, ?_,
    fun className search tree content log => confined_of_openClass, ?_⟩
  · intro first second root hfirst hsecond
    refine ⟨candidate_eq_iff hfirst hsecond, fun hplain hother hsame => ?_⟩
    exact slashed_inj hplain hother ((candidate_eq_iff hfirst hsecond).mp hsame)
  · intro className habsolute
    refine ⟨head?_resourceName_iff.mpr habsolute, candidate_of_not_ordinary habsolute, ?_⟩
    intro search other files hsearch hother
    apply answers_eq_of_locate?_eq
    rw [locate?_of_not_ordinary habsolute hsearch, locate?_of_not_ordinary habsolute hother]

end ClassAudit.SearchPath
