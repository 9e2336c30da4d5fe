import ClassAudit.Command.Run
import ClassAudit.Proofs.Layout.Satisfiable
import ClassAudit.Proofs.Lookup.FileTree
import ClassAudit.Proofs.Lookup.SearchPath

/-!
# The exit status is the verdict

For arguments that are not options, a run has three ends, and its exit status tells them apart: two
if there is not exactly one argument, zero if the class with this name is accepted, and one if it is
not.  Whether it is accepted depends on the roots that the variable lists and on the files, and on
nothing else (`Accepts`).

The filter of the log has a say in the second stream only.
-/

namespace ClassAudit.Command

/-! ## Arguments that are no options -/

namespace Request

variable {arguments : List String}

/-- An argument that does not begin with a dash is a name. -/
theorem ofRest_cons_of_name {found : Option String} {argument : String}
    (hname : argument.toList.head? ≠ some '-') (rest : List String) :
    ofRest found (argument :: rest) = withName found argument fun found => ofRest found rest := by
  rw [ofRest]
  split
  · rename_i hchars
    simp [hchars] at hname
  · rename_i hchars
    simp [hchars] at hname
  · rename_i hchars
    simp [hchars] at hname
  · rfl

theorem ofRest_of_names (found : Option String)
    (hnames : ∀ argument ∈ arguments, argument.toList.head? ≠ some '-') :
    ofRest found arguments = ofNames found arguments := by
  induction arguments generalizing found with
  | nil => rfl
  | cons argument rest ih =>
    obtain ⟨hname, hrest⟩ := List.forall_mem_cons.mp hnames
    rw [ofRest_cons_of_name hname, ofNames]
    congr 1
    funext found
    exact ih found hrest

/-- A single name asks for a check, and any other number of names is an error. -/
theorem ofArguments_of_names (hnames : ∀ argument ∈ arguments, argument.toList.head? ≠ some '-') :
    (∃ className, arguments = [className] ∧ ofArguments arguments = .ok (.check className)) ∨
      arguments.length ≠ 1 ∧ ∃ wrong, ofArguments arguments = .error wrong := by
  rw [ofArguments, ofRest_of_names none hnames]
  match arguments with
  | [] => exact .inr ⟨by simp, .missing, rfl⟩
  | [className] => exact .inl ⟨className, rfl, rfl⟩
  | _ :: surplus :: _ => exact .inr ⟨by simp, .surplus surplus, rfl⟩

end Request

/-! ## The verdict -/

/-- The class with a name is accepted: under the roots that the variable lists there is a first file
for it, and the standard layout accepts what this holds. -/
def Accepts (files : FileStore) (classPath : Option String) (className : String) : Prop :=
  ∃ roots root content compiled, SearchPath.Lists classPath roots ∧
    SearchPath.FirstHit files className roots root content ∧
    (Layout.standard.read content).result = .ok compiled

theorem accepts_iff {files : FileStore} {classPath : Option String} {className : String} :
    Accepts files classPath className ↔
      ∃ compiled, ((SearchPath.ofVariable classPath).readClass files .standard className).result =
        .ok compiled := by
  simp only [Accepts, SearchPath.lists_iff, SearchPath.result_readClass_eq_ok_iff]
  constructor
  · rintro ⟨_, root, content, compiled, rfl, hhit, haccepted⟩
    exact ⟨compiled, root, content, hhit, haccepted⟩
  · rintro ⟨compiled, root, content, hhit, haccepted⟩
    exact ⟨_, root, content, compiled, rfl, hhit, haccepted⟩

theorem status_cases (result : Except Fault CompiledClass) :
    status result = 0 ∧ (∃ compiled, result = .ok compiled) ∨
      status result = 1 ∧ ¬ ∃ compiled, result = .ok compiled := by
  cases result with
  | ok compiled => exact .inl ⟨rfl, compiled, rfl⟩
  | error fault => exact .inr ⟨rfl, by simp⟩

/-- **The exit status is the verdict.**  Arguments that do not begin with a dash lead to the status
two unless there is just one.  For a single argument nothing is written to the first stream, and the
status is zero if the class with this name is accepted and one if it is not.  The files of a tree
are its regular files.  A run with another filter for the log has the same status and writes the
same to the first stream. -/
theorem status_is_verdict (files : FileStore) (classPath logFilter : Option String)
    {arguments : List String}
    (hnames : ∀ argument ∈ arguments, argument.toList.head? ≠ some '-') :
    let response := run ⟨arguments, classPath, logFilter⟩ files
    (arguments.length ≠ 1 → response.status = 2) ∧
    (∀ className, arguments = [className] → response.output = "" ∧
      (Accepts files classPath className → response.status = 0) ∧
      (¬ Accepts files classPath className → response.status = 1)) ∧
    (∀ tree : FileTree, files = tree.files →
      ∀ path content, files path = some content ↔ tree.IsFile path content) ∧
    ∀ otherFilter, let other := run ⟨arguments, classPath, otherFilter⟩ files
      other.status = response.status ∧ other.output = response.output := by
  have htree (tree : FileTree) (hfiles : files = tree.files) (path : String) (content : Bytes) :
      files path = some content ↔ tree.IsFile path content := by
    rw [hfiles, FileTree.files_eq_some_iff]
  obtain ⟨className, rfl, hrequest⟩ | ⟨hcount, wrong, hrequest⟩ :=
    Request.ofArguments_of_names hnames
  · have hrun (filter : Option String) : run ⟨[className], classPath, filter⟩ files =
        check ⟨[className], classPath, filter⟩ files className := by
      simp only [run, Invocation.request, hrequest]
    simp only [hrun]
    refine ⟨by simp, ?_, htree, fun otherFilter => ⟨rfl, rfl⟩⟩
    rintro _ ⟨⟩
    rw [accepts_iff]
    refine ⟨rfl, fun haccepts => ?_, fun hrefused => ?_⟩
    · obtain ⟨hstatus, -⟩ | ⟨-, hnone⟩ := status_cases _
      · exact hstatus
      · exact absurd haccepts hnone
    · obtain ⟨-, haccepts⟩ | ⟨hstatus, -⟩ := status_cases _
      · exact absurd haccepts hrefused
      · exact hstatus
  · have hrun (filter : Option String) : run ⟨arguments, classPath, filter⟩ files =
        ⟨2, "", wrong.text⟩ := by
      simp only [run, Invocation.request, hrequest]
    simp only [hrun]
    refine ⟨fun _ => trivial, ?_, htree, fun _ => ⟨trivial, trivial⟩⟩
    rintro className rfl
    exact absurd rfl hcount

/-- The bytes of a class with the standard layout. -/
def plainClassBytes : Bytes :=
  Layout.standard.plainBytes (Attribute.Kind.code.nameBytes ++
    (Attribute.Kind.sourceFile.nameBytes ++
      (List.replicate 13 (7 :: Bytes.ofUInt16 0)).flatten)) 1 2

theorem plainClassBytes_accepted :
    ∃ compiled, (Layout.standard.read plainClassBytes).result = .ok compiled := by
  have hcode := Attribute.Kind.code.written_nameBytes
  have hsource := Attribute.Kind.sourceFile.written_nameBytes
  have hothers := Written.Sequence.replicate (@Constant.Written.classEntry 0) 13
  have hconstants : Written.Sequence Constant.Written
      (Pool.ofList (Layout.plainConstants 15)).toList _ := .cons hcode (.cons hsource hothers)
  exact ⟨_, (Layout.standard.gives_read_plainBytes 1 2 rfl hconstants rfl rfl).1⟩

/-- A tree with this class in one directory, and with a directory of the same name in another. -/
def plainTree : FileTree where
  entries := [(["first"], .directory), (["Main.class", "first"], .directory),
    (["second"], .directory), (["Main.class", "second"], .file plainClassBytes)]

/-- The directory is passed over, whatever its name is. -/
theorem accepts_plainTree : Accepts plainTree.files (some "first:second") "Main" := by
  obtain ⟨compiled, haccepted⟩ := plainClassBytes_accepted
  have hlists : SearchPath.Lists (some "first:second") ["first", "second"] := by
    rw [SearchPath.lists_iff]
    decide
  have hfirst : plainTree.files (SearchPath.candidate "Main" "first") = none := by decide
  have hsecond : plainTree.files (SearchPath.candidate "Main" "second") = some plainClassBytes :=
    rfl
  have hhit : SearchPath.FirstHit plainTree.files "Main" ["first", "second"] "second"
      plainClassBytes := ⟨["first"], [], rfl, by simpa using hfirst, hsecond⟩
  exact ⟨_, _, _, compiled, hlists, hhit, haccepted⟩

theorem status_of_plainTree :
    (run ⟨["Main"], some "first:second", some "off"⟩ plainTree.files).status = 0 := by
  have hnames : ∀ argument ∈ ["Main"], argument.toList.head? ≠ some '-' := by simp
  obtain ⟨-, hsingle, -⟩ :=
    status_is_verdict plainTree.files (some "first:second") (some "off") hnames
  obtain ⟨-, haccepted, -⟩ := hsingle "Main" rfl
  exact haccepted accepts_plainTree

end ClassAudit.Command
