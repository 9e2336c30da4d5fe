import ClassAudit.Lookup.FileTree
import ClassAudit.Proofs.Lookup.SearchPath
import Mathlib.Logic.Function.Basic

/-!
# The first root decides

A class can be looked up in three ways: its path is found, its file is opened, or it is read by a
layout.  All three answers depend on one thing only, which is what `SearchPath.locate?` finds
(`answers_eq_of_locate?_eq`), and this is determined by the candidates up to and including the first
one that is a file.  Everything else may change, before the first hit as well as behind it:

* roots may be appended behind the first hit (`locate?_append_of_firstHit`);
* roots without the class may be inserted anywhere (`Padded.locate?_eq`);
* files may be written and removed, as long as the candidates that decide are what they were
  (`locate?_eq_of_decisive`).  That is so if no change is made at the path of one of them
  (`FileStore.after_of_untouched`).

`first_root_decides` puts this together.  What the first file holds does not matter: it is read as
it is, and its faults are those of the look-up, even if a later root has a class without faults.
-/

namespace ClassAudit

/-! ## Changes of files -/

/-- A change of the files: one is written, with a new content if it was there before, or removed. -/
inductive Change where
  | write (path : String) (content : Bytes)
  | remove (path : String)

/-- The path at which a change is made. -/
def Change.path : Change → String
  | write path _ => path
  | remove path => path

namespace FileStore

/-- The files after a change. -/
def change (files : FileStore) : Change → FileStore
  | .write path content => Function.update files path (some content)
  | .remove path => Function.update files path none

/-- The files after several changes, of which the first is made first. -/
def after (files : FileStore) (changes : List Change) : FileStore :=
  changes.foldl change files

theorem change_of_ne {files : FileStore} {made : Change} {path : String}
    (hpath : path ≠ made.path) : files.change made path = files path := by
  cases made with
  | write written content => exact Function.update_of_ne hpath _ _
  | remove removed => exact Function.update_of_ne hpath _ _

/-- A path at which no change is made leads to what it led to before. -/
theorem after_of_untouched {files : FileStore} {changes : List Change} {path : String}
    (huntouched : ∀ made ∈ changes, path ≠ made.path) : files.after changes path = files path := by
  induction changes generalizing files with
  | nil => rfl
  | cons made later ih =>
    rw [List.forall_mem_cons] at huntouched
    calc files.after (made :: later) path
        = (files.change made).after later path := rfl
      _ = files.change made path := ih huntouched.2
      _ = files path := change_of_ne huntouched.1

end FileStore

namespace FileTree

/-- The tree after a change. -/
def change (tree : FileTree) : Change → FileTree
  | .write path content => tree.write path content
  | .remove path => tree.remove path

/-- The tree after several changes, of which the first is made first. -/
def after (tree : FileTree) (changes : List Change) : FileTree :=
  changes.foldl change tree

end FileTree

/-! ## The three answers -/

namespace SearchPath

/-- What can be asked about a class on a search path: where it is, what its file holds, and how it
is read by a layout. -/
structure Answers where
  path : Option String
  content : Report Bytes
  compiled : Layout → Report CompiledClass

/-- The answers that a search path gives about a class. -/
def answers (search : SearchPath) (files : FileStore) (className : String) : Answers where
  path := search.find? files className
  content := search.openClass files className
  compiled layout := search.readClass files layout className

variable {search other : SearchPath} {files others : FileStore} {className : String}
  {roots : List String}

/-- All answers come from the file that is located. -/
theorem answers_eq_of_locate?_eq
    (hlocate : search.locate? files className = other.locate? others className) :
    search.answers files className = other.answers others className := by
  simp only [answers, find?, readClass, openClass, hlocate]

theorem answers_of_locate?_eq_some {path : String} {content : Bytes}
    (hlocate : search.locate? files className = some (path, content)) :
    search.answers files className =
      { path := some path
        content := ⟨.ok content, [.opened className path]⟩
        compiled := fun layout =>
          ⟨(layout.read content).result,
            .opened className path :: (layout.read content).log⟩ } := by
  simp only [answers, find?, readClass, openClass, hlocate, Option.map_some, List.singleton_append]

theorem answers_of_locate?_eq_none (hlocate : search.locate? files className = none) :
    search.answers files className =
      { path := none
        content := ⟨.error (.classNotFound className), []⟩
        compiled := fun _ => ⟨.error (.classNotFound className), []⟩ } := by
  simp only [answers, find?, readClass, openClass, hlocate, Option.map_none]

/-! ## What the answers depend on -/

theorem locate?_cons (root : String) (later : List String) :
    locate? ⟨root :: later⟩ files className =
      match files (candidate className root) with
      | some content => some (candidate className root, content)
      | none => locate? ⟨later⟩ files className := by
  rw [locate?, candidates, List.map_cons, List.findSome?_cons]
  cases files (candidate className root) with
  | none => rfl
  | some content => rfl

/-- Nothing is located if no candidate is a file. -/
theorem locate?_eq_none_of_idle (hidle : ∀ root ∈ roots, files (candidate className root) = none) :
    locate? ⟨roots⟩ files className = none := by
  induction roots with
  | nil => rfl
  | cons root later ih =>
    rw [List.forall_mem_cons] at hidle
    rw [locate?_cons, hidle.1]
    exact ih hidle.2

/-- Roots behind the first hit are not asked. -/
theorem locate?_append_of_firstHit {root : String} {content : Bytes} (behind : List String)
    (hhit : FirstHit files className roots root content) :
    locate? ⟨roots ++ behind⟩ files className = locate? ⟨roots⟩ files className := by
  have hlocate : locate? ⟨roots⟩ files className = some (candidate className root, content) :=
    locate?_eq_some_iff.mpr ⟨root, rfl, hhit⟩
  rw [locate?_append, hlocate, Option.orElse_eq_orElse]
  rfl

/-- The second roots are the first ones, with some roots inserted that do not have the class. -/
inductive Padded (files : FileStore) (className : String) : List String → List String → Prop where
  | nil : Padded files className [] []
  | keep {roots padded : List String} (root : String)
      (hlater : Padded files className roots padded) :
      Padded files className (root :: roots) (root :: padded)
  | insert {roots padded : List String} {root : String}
      (hidle : files (candidate className root) = none)
      (hlater : Padded files className roots padded) : Padded files className roots (root :: padded)

theorem Padded.locate?_eq {padded : List String} (hpadded : Padded files className roots padded) :
    locate? ⟨padded⟩ files className = locate? ⟨roots⟩ files className := by
  induction hpadded with
  | nil => rfl
  | keep root _ ih => rw [locate?_cons, locate?_cons, ih]
  | insert hidle _ ih =>
    rw [locate?_cons, hidle]
    exact ih

/-- The candidates that decide: those up to and including the first one that is a file, or all of
them if there is none. -/
def decisive (files : FileStore) (className : String) : List String → List String
  | [] => []
  | root :: later =>
    match files (candidate className root) with
    | some _ => [candidate className root]
    | none => candidate className root :: decisive files className later

/-- Other files are located in the same way if they do not differ in the candidates that decide. -/
theorem locate?_eq_of_decisive
    (hsame : ∀ path ∈ decisive files className roots, others path = files path) :
    locate? ⟨roots⟩ others className = locate? ⟨roots⟩ files className := by
  induction roots with
  | nil => rfl
  | cons root later ih =>
    unfold decisive at hsame
    rw [locate?_cons, locate?_cons]
    cases hfile : files (candidate className root) with
    | some content =>
      rw [hfile] at hsame
      rw [hsame _ (List.mem_singleton_self _), hfile]
    | none =>
      rw [hfile] at hsame
      obtain ⟨hfirst, hlater⟩ := List.forall_mem_cons.mp hsame
      rw [hfirst, hfile]
      exact ih hlater

/-- **The first root decides.**  If there is a first root under which there is the file of a class,
this file is found, opened and read, whatever it holds and whatever stands under later roots.  If
there is none, the class is not found.  The answers remain the same if roots are appended behind the
first hit, if roots without the class are inserted anywhere, and if the files change, however often,
so that the candidates up to and including the first hit are in the end what they were; it is enough
that no change is made at the path of one of them.  And on a list of roots that is put together from
two, a class is found on the first, or else on the second. -/
theorem first_root_decides (files : FileStore) (className : String) :
    (∀ roots root content, FirstHit files className roots root content →
      answers ⟨roots⟩ files className =
        { path := some (candidate className root)
          content := ⟨.ok content, [.opened className (candidate className root)]⟩
          compiled := fun layout => ⟨(layout.read content).result,
            .opened className (candidate className root) :: (layout.read content).log⟩ }) ∧
    (∀ roots, (∀ root ∈ roots, files (candidate className root) = none) →
      answers ⟨roots⟩ files className =
        { path := none
          content := ⟨.error (.classNotFound className), []⟩
          compiled := fun _ => ⟨.error (.classNotFound className), []⟩ }) ∧
    (∀ roots root content behind, FirstHit files className roots root content →
      answers ⟨roots ++ behind⟩ files className = answers ⟨roots⟩ files className) ∧
    (∀ roots padded, Padded files className roots padded →
      answers ⟨padded⟩ files className = answers ⟨roots⟩ files className) ∧
    (∀ roots (others : FileStore),
      (∀ path ∈ decisive files className roots, others path = files path) →
      answers ⟨roots⟩ others className = answers ⟨roots⟩ files className) ∧
    (∀ roots changes, (∀ made ∈ changes, made.path ∉ decisive files className roots) →
      answers ⟨roots⟩ (files.after changes) className = answers ⟨roots⟩ files className) ∧
    (∀ roots (tree : FileTree) changes,
      (∀ path ∈ decisive tree.files className roots,
        (tree.after changes).files path = tree.files path) →
      answers ⟨roots⟩ (tree.after changes).files className =
        answers ⟨roots⟩ tree.files className) ∧
    ∀ roots behind, find? ⟨roots ++ behind⟩ files className =
      (find? ⟨roots⟩ files className <|> find? ⟨behind⟩ files className) := by
  refine ⟨?_, ?_, ?_, ?_, ?_, ?_, ?_, ?_⟩
  · intro roots root content hhit
    exact answers_of_locate?_eq_some (locate?_eq_some_iff.mpr ⟨root, rfl, hhit⟩)
  · intro roots hidle
    exact answers_of_locate?_eq_none (locate?_eq_none_of_idle hidle)
  · intro roots root content behind hhit
    exact answers_eq_of_locate?_eq (locate?_append_of_firstHit behind hhit)
  · intro roots padded hpadded
    exact answers_eq_of_locate?_eq hpadded.locate?_eq
  · intro roots others hsame
    exact answers_eq_of_locate?_eq (locate?_eq_of_decisive hsame)
  · intro roots changes huntouched
    refine answers_eq_of_locate?_eq (locate?_eq_of_decisive fun path hpath => ?_)
    apply FileStore.after_of_untouched
    rintro made hmade rfl
    exact huntouched made hmade hpath
  · intro roots tree changes hsame
    exact answers_eq_of_locate?_eq (locate?_eq_of_decisive hsame)
  · intro roots behind
    rw [find?, locate?_append, find?, find?]
    cases locate? ⟨roots⟩ files className with
    | none => rfl
    | some located => rfl

end SearchPath

end ClassAudit
