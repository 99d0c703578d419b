import Mathlib.Data.List.Infix
import Mathlib.Logic.Function.Basic

/-!
# A tree of files and directories

Paths are the lists of their components.  A tree says what is at each path; a `FileSystem` is a tree in
which everything stands in a directory.  The operations are those of the operating system, as they act
on a tree, with the place where the environment makes them fail.
-/

namespace AgentPark.Lib

abbrev Path := List String

inductive Entry (β : Type*) where
  | file (content : β)
  | directory
deriving DecidableEq

abbrev FileTree (β : Type*) := Path → Option (Entry β)

variable {β : Type*}

/-- The content of the file at a path. -/
def FileTree.content (tree : FileTree β) (path : Path) : Option β :=
  match tree path with
  | some (.file content) => some content
  | _ => none

def FileTree.isDirectory (tree : FileTree β) (path : Path) : Bool :=
  match tree path with
  | some .directory => true
  | _ => false

structure FileSystem (β : Type*) where
  tree : FileTree β
  root : tree [] = some .directory
  closed : ∀ path name, tree (path ++ [name]) ≠ none → tree path = some .directory

/-- The directories a path stands in, the outermost one first. -/
def parents (path : Path) : List Path := path.dropLast.inits

/-- Make the missing ones of some directories; with `some n` the one behind `n` new ones fails. -/
def makeDirs : Option Nat → List Path → FileTree β → FileTree β × Bool
  | _, [], tree => (tree, true)
  | fault, dir :: dirs, tree =>
    match tree dir with
    | some .directory => makeDirs fault dirs tree
    | some (.file _) => (tree, false)
    | none =>
      match fault with
      | some 0 => (tree, false)
      | some (n + 1) => makeDirs (some n) dirs (Function.update tree dir (some .directory))
      | none => makeDirs none dirs (Function.update tree dir (some .directory))

/-- Write a file beside its place and put it there; with `some n` this fails when `n` directories have
been made, or behind all of them. -/
def writeFile (fault : Option Nat) (tree : FileTree β) (path : Path) (content : β) : FileTree β × Bool :=
  let made := makeDirs fault (parents path) tree
  if made.2 = true ∧ fault = none ∧ made.1.isDirectory path = false then
    (Function.update made.1 path (some (.file content)), true)
  else (made.1, false)

/-- Remove a file. -/
def removeFile (fault : Bool) (tree : FileTree β) (path : Path) : FileTree β × Bool :=
  match fault, tree path with
  | false, some (.file _) => (Function.update tree path none, true)
  | _, _ => (tree, false)

/-! ### Making directories -/

section
variable {fault : Option Nat} {tree : FileTree β} {path : Path}

theorem content_eq_none_of_directory (isDir : tree path = some .directory) : tree.content path = none := by
  rw [FileTree.content, isDir]

theorem content_eq_none_of_absent (absent : tree path = none) : tree.content path = none := by
  rw [FileTree.content, absent]

theorem content_eq_some {content : β} :
    tree.content path = some content ↔ tree path = some (.file content) := by
  unfold FileTree.content
  split
  next other isFile => simp [isFile]
  next noFile =>
    constructor
    · intro absurd
      cases absurd
    · intro isFile
      exact absurd isFile (noFile content)

theorem isDirectory_iff : tree.isDirectory path = true ↔ tree path = some .directory := by
  unfold FileTree.isDirectory
  split
  next isDir => simp [isDir]
  next notDir =>
    constructor
    · intro absurd
      cases absurd
    · intro isDir
      exact absurd isDir notDir

theorem content_update_directory {dir : Path} (absent : tree dir = none) (other : Path) :
    FileTree.content (Function.update tree dir (some .directory)) other = tree.content other := by
  by_cases isDir : other = dir
  · subst isDir
    rw [content_eq_none_of_directory (Function.update_self _ _ _), content_eq_none_of_absent absent]
  · unfold FileTree.content
    rw [Function.update_of_ne isDir]

theorem content_update_file (tree : FileTree β) (path : Path) (content : β) (other : Path) :
    FileTree.content (Function.update tree path (some (.file content))) other =
      if other = path then some content else tree.content other := by
  by_cases same : other = path
  · rw [if_pos same, same, content_eq_some, Function.update_self]
  · rw [if_neg same, FileTree.content, Function.update_of_ne same, FileTree.content]

/-- All that `makeDirs` changes. -/
theorem makeDirs_spec (fault : Option Nat) (dirs : List Path) (tree : FileTree β) (path : Path) :
    (makeDirs fault dirs tree).1 path = tree path ∨
      tree path = none ∧ path ∈ dirs ∧ (makeDirs fault dirs tree).1 path = some .directory := by
  induction dirs generalizing fault tree with
  | nil => exact .inl rfl
  | cons dir dirs ih =>
    have later : ∀ fault', tree dir = none →
        (makeDirs fault' dirs (Function.update tree dir (some .directory))).1 path = tree path ∨
          tree path = none ∧ path ∈ dir :: dirs ∧
            (makeDirs fault' dirs (Function.update tree dir (some .directory))).1 path = some .directory := by
      intro fault' absent
      rcases ih fault' (Function.update tree dir (some .directory)) with same | ⟨absentHere, mem, isDir⟩
      · by_cases isPath : path = dir
        · subst isPath
          rw [Function.update_self] at same
          exact .inr ⟨absent, List.mem_cons_self, same⟩
        · rw [Function.update_of_ne isPath] at same
          exact .inl same
      · by_cases isPath : path = dir
        · subst isPath
          rw [Function.update_self] at absentHere
          cases absentHere
        · rw [Function.update_of_ne isPath] at absentHere
          exact .inr ⟨absentHere, List.mem_cons_of_mem dir mem, isDir⟩
    unfold makeDirs
    cases here : tree dir with
    | none =>
      match fault with
      | some 0 => exact .inl rfl
      | some (n + 1) => exact later (some n) here
      | none => exact later none here
    | some entry =>
      cases entry with
      | file content => exact .inl rfl
      | directory =>
        rcases ih fault tree with same | ⟨absent, mem, isDir⟩
        · exact .inl same
        · exact .inr ⟨absent, List.mem_cons_of_mem dir mem, isDir⟩

theorem makeDirs_content (fault : Option Nat) (dirs : List Path) (tree : FileTree β) (path : Path) :
    (makeDirs fault dirs tree).1.content path = tree.content path := by
  rcases makeDirs_spec fault dirs tree path with same | ⟨absent, -, isDir⟩
  · rw [FileTree.content, FileTree.content, same]
  · rw [content_eq_none_of_directory isDir, content_eq_none_of_absent absent]

theorem makeDirs_of_some (fault : Option Nat) (dirs : List Path) {entry : Entry β}
    (there : tree path = some entry) : (makeDirs fault dirs tree).1 path = some entry := by
  rcases makeDirs_spec fault dirs tree path with same | ⟨absent, -, -⟩
  · rw [same, there]
  · rw [there] at absent
    cases absent

theorem makeDirs_directory {dirs : List Path} (made : (makeDirs fault dirs tree).2 = true) :
    ∀ dir ∈ dirs, (makeDirs fault dirs tree).1 dir = some .directory := by
  induction dirs generalizing fault tree with
  | nil => exact fun _ mem => by cases mem
  | cons dir dirs ih =>
    unfold makeDirs at made ⊢
    cases here : tree dir with
    | none =>
      rw [here] at made
      match fault with
      | some 0 => cases made
      | some (n + 1) =>
        exact List.forall_mem_cons.mpr ⟨makeDirs_of_some _ _ (Function.update_self _ _ _), ih made⟩
      | none =>
        exact List.forall_mem_cons.mpr ⟨makeDirs_of_some _ _ (Function.update_self _ _ _), ih made⟩
    | some entry =>
      rw [here] at made
      cases entry with
      | file content => cases made
      | directory => exact List.forall_mem_cons.mpr ⟨makeDirs_of_some _ _ here, ih made⟩

theorem makeDirs_none_iff {dirs : List Path} :
    (makeDirs none dirs tree).2 = true ↔ ∀ dir ∈ dirs, tree.content dir = none := by
  induction dirs generalizing tree with
  | nil => simp [makeDirs]
  | cons dir dirs ih =>
    rw [List.forall_mem_cons]
    unfold makeDirs
    cases here : tree dir with
    | none =>
      dsimp only
      rw [ih]
      simp only [content_update_directory here, content_eq_none_of_absent here, true_and]
    | some entry =>
      cases entry with
      | file content => simp [FileTree.content, here]
      | directory =>
        dsimp only
        rw [ih]
        simp only [content_eq_none_of_directory here, true_and]

theorem makeDirs_of_directories {dirs : List Path} (all : ∀ dir ∈ dirs, tree dir = some .directory) :
    makeDirs fault dirs tree = (tree, true) := by
  induction dirs with
  | nil => rfl
  | cons dir dirs ih =>
    obtain ⟨first, later⟩ := List.forall_mem_cons.mp all
    unfold makeDirs
    rw [first]
    exact ih later

end

/-! ### Writing and removing files -/

theorem mem_parents {dir path : Path} : dir ∈ parents path ↔ dir <+: path.dropLast := List.mem_inits _ _

theorem notMem_parents {path : Path} (ne : path ≠ []) : path ∉ parents path := by
  intro mem
  have le := (mem_parents.mp mem).length_le
  rw [List.length_dropLast] at le
  have positive := List.length_pos_of_ne_nil ne
  omega

section
variable {fault : Option Nat} {tree : FileTree β} {path : Path} {content : β}

/-- A file is written unless the environment makes it fail, a file stands in the place of a directory,
or a directory in the place of the file. -/
theorem writeFile_ok_iff : (writeFile fault tree path content).2 = true ↔
    fault = none ∧ (∀ dir ∈ parents path, tree.content dir = none) ∧ path ≠ [] ∧
      tree path ≠ some .directory := by
  have isIf : (writeFile fault tree path content).2 = true ↔
      (makeDirs fault (parents path) tree).2 = true ∧ fault = none ∧
        (makeDirs fault (parents path) tree).1.isDirectory path = false := by
    unfold writeFile
    dsimp only
    split_ifs with goes
    · exact iff_of_true rfl goes
    · exact iff_of_false (by simp) goes
  rw [isIf]
  constructor
  · rintro ⟨made, rfl, notDir⟩
    have root : path ≠ [] := by
      intro isRoot
      subst isRoot
      have isDir := isDirectory_iff.mpr (makeDirs_directory made [] (by simp [parents]))
      rw [notDir] at isDir
      cases isDir
    refine ⟨rfl, makeDirs_none_iff.mp made, root, fun isDir => ?_⟩
    have isDir' := isDirectory_iff.mpr (makeDirs_of_some none (parents path) isDir)
    rw [notDir] at isDir'
    cases isDir'
  · rintro ⟨rfl, free, root, notDir⟩
    refine ⟨makeDirs_none_iff.mpr free, rfl, ?_⟩
    have same := (makeDirs_spec none (parents path) tree path).resolve_right fun new =>
      notMem_parents root new.2.1
    rw [Bool.eq_false_iff, Ne, isDirectory_iff, same]
    exact notDir

theorem writeFile_of_ok (ok : (writeFile fault tree path content).2 = true) :
    (writeFile fault tree path content).1 =
      Function.update (makeDirs fault (parents path) tree).1 path (some (.file content)) := by
  unfold writeFile at ok ⊢
  dsimp only at ok ⊢
  split_ifs at ok ⊢
  rfl

theorem writeFile_of_not_ok (failed : (writeFile fault tree path content).2 = false) :
    (writeFile fault tree path content).1 = (makeDirs fault (parents path) tree).1 := by
  unfold writeFile at failed ⊢
  dsimp only at failed ⊢
  split_ifs at failed ⊢
  rfl

/-- All that `writeFile` changes. -/
theorem writeFile_content (other : Path) : (writeFile fault tree path content).1.content other =
    if (writeFile fault tree path content).2 = true ∧ other = path then some content
    else tree.content other := by
  cases ok : (writeFile fault tree path content).2 with
  | false =>
    rw [writeFile_of_not_ok ok, makeDirs_content, if_neg (by simp)]
  | true =>
    rw [writeFile_of_ok ok]
    by_cases isPath : other = path
    · subst isPath
      rw [if_pos ⟨rfl, rfl⟩, content_eq_some]
      exact Function.update_self _ _ _
    · rw [if_neg (by simp [isPath]), ← makeDirs_content fault (parents path) tree other]
      unfold FileTree.content
      rw [Function.update_of_ne isPath]

theorem writeFile_directory (other : Path) :
    (tree other = some .directory → (writeFile fault tree path content).1 other = some .directory) ∧
      ((writeFile fault tree path content).1 other = some .directory →
        tree other = some .directory ∨ other ∈ parents path) := by
  have new : (makeDirs fault (parents path) tree).1 other = some .directory →
      tree other = some .directory ∨ other ∈ parents path := by
    intro isDir
    rcases makeDirs_spec fault (parents path) tree other with same | ⟨-, mem, -⟩
    · exact .inl (same.symm.trans isDir)
    · exact .inr mem
  cases ok : (writeFile fault tree path content).2 with
  | false =>
    rw [writeFile_of_not_ok ok]
    exact ⟨makeDirs_of_some fault (parents path), new⟩
  | true =>
    obtain ⟨-, -, -, notDir⟩ := writeFile_ok_iff.mp ok
    rw [writeFile_of_ok ok]
    by_cases isPath : other = path
    · subst isPath
      rw [Function.update_self]
      exact ⟨fun isDir => absurd isDir notDir, fun isDir => by cases isDir⟩
    · rw [Function.update_of_ne isPath]
      exact ⟨makeDirs_of_some fault (parents path), new⟩

theorem writeFile_parents (ok : (writeFile fault tree path content).2 = true) :
    ∀ dir ∈ parents path, (writeFile fault tree path content).1 dir = some .directory := by
  obtain ⟨rfl, free, root, -⟩ := writeFile_ok_iff.mp ok
  intro dir mem
  have ne : dir ≠ path := by
    intro same
    rw [same] at mem
    exact notMem_parents root mem
  rw [writeFile_of_ok ok, Function.update_of_ne ne]
  exact makeDirs_directory (makeDirs_none_iff.mpr free) dir mem

/-- When a file can be removed. -/
theorem removeFile_ok_iff {fault : Bool} : (removeFile fault tree path).2 = true ↔
    fault = false ∧ tree path ≠ none ∧ tree path ≠ some .directory := by
  unfold removeFile
  split
  next content isFile => simp [isFile]
  next noFile =>
    refine iff_of_false Bool.false_ne_true ?_
    rintro ⟨rfl, there, notDir⟩
    cases here : tree path with
    | none => exact there here
    | some entry =>
      cases entry with
      | file content => exact noFile content rfl here
      | directory => exact notDir here

/-- All that `removeFile` changes. -/
theorem removeFile_of_ok {fault : Bool} (ok : (removeFile fault tree path).2 = true) :
    (removeFile fault tree path).1 = Function.update tree path none := by
  unfold removeFile at ok ⊢
  split at ok
  · rfl
  · cases ok

theorem removeFile_of_not_ok {fault : Bool} (failed : (removeFile fault tree path).2 = false) :
    (removeFile fault tree path).1 = tree := by
  unfold removeFile at failed ⊢
  split at failed
  · cases failed
  · rfl

theorem content_update_none (other : Path) : FileTree.content (Function.update tree path none) other =
    if other = path then none else tree.content other := by
  unfold FileTree.content
  by_cases isPath : other = path
  · rw [if_pos isPath, isPath, Function.update_self]
  · rw [if_neg isPath, Function.update_of_ne isPath]

theorem writeFile_same (isFile : tree path = some (.file content))
    (dirs : ∀ dir ∈ parents path, tree dir = some .directory) :
    (writeFile none tree path content).1 = tree := by
  have made := @makeDirs_of_directories β none tree (parents path) dirs
  cases ok : (writeFile none tree path content).2 with
  | false => rw [writeFile_of_not_ok ok, made]
  | true =>
    rw [writeFile_of_ok ok, made]
    exact Function.update_eq_self_iff.mpr isFile.symm

end

theorem FileSystem.parents_directory (fs : FileSystem β) {path : Path} (there : fs.tree path ≠ none) :
    ∀ dir ∈ parents path, fs.tree dir = some .directory := by
  intro dir mem
  induction path using List.reverseRecOn with
  | nil =>
    have isRoot : dir = [] := by simpa [parents] using mem
    rw [isRoot]
    exact fs.root
  | append_singleton path name ih =>
    have isDir := fs.closed path name there
    rw [mem_parents, List.dropLast_concat] at mem
    by_cases same : dir = path
    · rw [same]
      exact isDir
    · refine ih (by rw [isDir]; simp) (mem_parents.mpr ?_)
      obtain ⟨back, rfl⟩ := mem
      rcases List.eq_nil_or_concat back with rfl | ⟨front, last, rfl⟩
      · exact absurd (List.append_nil dir).symm same
      · rw [List.concat_eq_append, ← List.append_assoc, List.dropLast_concat]
        exact List.prefix_append dir front

end AgentPark.Lib
