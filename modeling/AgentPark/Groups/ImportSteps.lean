import AgentPark.Groups.Outbox

/-!
# An application of a structure, step by step

`apply_structure` checks every file, checks the groups, writes the files one by one and then changes the groups in a
transaction.  It can stop between any two of these, and others can change the directory in between.

`Call.writes` is no part of the program: it records what the application has written.
-/

namespace AgentPark.Groups

open Lib

/-- What `read_json` finds before a file is written. -/
def GraphDirectory.read (dir : GraphDirectory) : Option String → Option Json
  | none => dir.config
  | some node => dir.nodes.lookup node

/-- The file of a change is as planned. -/
def FileChange.settled (change : FileChange) (dir : GraphDirectory) : Bool :=
  (dir.read change.node).any fun current => current.pyEq change.after

inductive Write where
  | file (change : FileChange)
  | groups

/-- Where an application is; `raised` is what it has raised at its end. -/
inductive Progress where
  | checkFiles (rest : List FileChange)
  | writeFiles (rest : List FileChange) (currentGroups : List GroupFields)
  | ended (raised : Option GroupError)

structure Call where
  dir : GraphDirectory
  progress : Progress
  writes : List Write

def Call.start (plan : StructurePlan) (dir : GraphDirectory) : Call := ⟨dir, .checkFiles plan.files, []⟩

def staleFiles : GroupError := .sync "预览后 Graph/节点配置发生变化，请重新预览。"

def staleGroups : GroupError := .sync "预览后分组发生变化，请重新预览。"

/-- One step of `apply_structure`. -/
def Call.advance (c : Caller) (plan : StructurePlan) (call : Call) : Call :=
  match call.progress with
  | .checkFiles (change :: rest) =>
    if change.isCurrent (call.dir.current change.node) then { call with progress := .checkFiles rest }
    else { call with progress := .ended (some staleFiles) }
  | .checkFiles [] =>
    let currentGroups := call.dir.store.activeFields
    if currentGroups = plan.groupsBefore ∨ currentGroups = plan.groups then
      { call with progress := .writeFiles plan.files currentGroups }
    else { call with progress := .ended (some staleGroups) }
  | .writeFiles (change :: rest) currentGroups =>
    if change.settled call.dir then { call with progress := .writeFiles rest currentGroups }
    else
      { dir := call.dir.write change, progress := .writeFiles rest currentGroups,
        writes := call.writes ++ [.file change] }
  | .writeFiles [] currentGroups =>
    if currentGroups = plan.groups then { call with progress := .ended none }
    else
      match importGroups c call.dir.store plan with
      | .error e => { call with progress := .ended (some e) }
      | .ok store =>
        { dir := { call.dir with store }, progress := .ended none, writes := call.writes ++ [.groups] }
  | .ended _ => call

/-- What happens to the directory during an application. -/
inductive Action where
  | call (c : Caller)
  | others (dir : GraphDirectory)

/-- A step of an application, or what others do to the directory. -/
def Call.step (plan : StructurePlan) (call : Call) : Action → Option Call
  | .call c => some (call.advance c plan)
  | .others dir => some { call with dir }

/-- Steps of an application with nobody else at the directory. -/
def Call.alone (c : Caller) (plan : StructurePlan) : Nat → Call → Call
  | 0, call => call
  | n + 1, call => Call.alone c plan n (call.advance c plan)

/-! ### What an application has written -/

/-- The rejections of the preview, before anything is written. -/
def stalePreview : List GroupError := [staleFiles, staleGroups]

/-- What the writes of an application tell. -/
def Honest (plan : StructurePlan) (call : Call) : Prop :=
  match call.progress with
  | .checkFiles _ => call.writes = []
  | .writeFiles rest _ => (∀ write ∈ call.writes, ∃ change ∈ plan.files, write = .file change) ∧ rest ⊆ plan.files
  | .ended none => True
  | .ended (some e) =>
    (∀ write ∈ call.writes, ∃ change ∈ plan.files, write = .file change) ∧ (e ∈ stalePreview → call.writes = [])

variable {e : GroupError}

theorem require_eq_error {c : Prop} [Decidable c] {raised : GroupError}
    (failed : require c e = .error raised) :
    raised = e := by
  rw [require] at failed
  split_ifs at failed
  exact (Except.error.inj failed).symm

theorem owners_not_stale (name : String) :
    GroupError.sync ("目标分组 " ++ name ++ " 的未完成任务负责人会离组，请先转交或完成这些任务。") ∉ stalePreview := by
  intro mem
  rw [stalePreview, List.mem_cons, List.mem_singleton] at mem
  have first : "目标分组 ".toList = '目' :: "标分组 ".toList := by decide
  rcases mem with same | same
  all_goals
    have heads := congrArg (fun text => text.toList.head?) (GroupError.sync.inj same)
    rw [String.toList_append, String.toList_append, first, List.cons_append, List.cons_append, List.head?_cons] at heads
    revert heads
    decide

theorem requireOwners_error {groups : List AgentGroup} {values : List GroupFields}
    (raised : requireOwners groups values = .error e) : e ∉ stalePreview := by
  induction values with
  | nil => cases raised
  | cons value values ih =>
    rw [requireOwners] at raised
    split at raised
    · rcases bind_eq_error.mp raised with failed | ⟨u, -, later⟩
      · rw [require_eq_error failed]
        exact owners_not_stale _
      · exact ih later
    · exact ih raised

variable {db : GroupStore}

theorem insertAll_error {members : List GroupMember} {groupId : String}
    (raised : createGroup.insertAll members groupId db = .error e) : e = .integrity := by
  induction members generalizing db with
  | nil => cases raised
  | cons member members ih =>
    rw [createGroup.insertAll] at raised
    rcases bind_eq_error.mp raised with failed | ⟨mid, -, later⟩
    · rw [GroupStore.insertMember] at failed
      split_ifs at failed
      exact (Except.error.inj failed).symm
    · exact ih later

theorem importRows_error {c : Caller} {existing : List AgentGroup} {values : List GroupFields}
    (raised : importRows c existing values db = .error e) : e = .integrity := by
  induction values generalizing db with
  | nil => cases raised
  | cons value values ih =>
    rcases bind_eq_error.mp raised with failed | ⟨mid, -, later⟩
    · exact insertAll_error failed
    · exact ih later

variable {plan : StructurePlan}

theorem importGroups_error {c : Caller} (raised : importGroups c db plan = .error e) :
    e ∉ stalePreview := by
  rcases bind_eq_error.mp raised with failed | ⟨u, -, raised⟩
  · rw [require_eq_error failed]
    decide
  rcases bind_eq_error.mp raised with failed | ⟨v, -, raised⟩
  · rw [require_eq_error failed]
    decide
  rcases bind_eq_error.mp raised with failed | ⟨w, -, raised⟩
  · exact requireOwners_error failed
  · rw [importRows_error raised]
    decide

variable {call : Call}

theorem honest_advance (c : Caller) (honest : Honest plan call) :
    Honest plan (call.advance c plan) := by
  obtain ⟨dir, progress, writes⟩ := call
  rw [Call.advance]
  cases progress with
  | checkFiles rest =>
    have nothing : writes = [] := honest
    have none : ∀ write ∈ writes, ∃ change ∈ plan.files, write = .file change := by
      rw [nothing]
      exact List.forall_mem_nil _
    cases rest with
    | nil =>
      dsimp only
      split_ifs
      · exact ⟨none, List.Subset.refl _⟩
      · exact ⟨none, fun _ => nothing⟩
    | cons change rest =>
      dsimp only
      split_ifs
      · exact nothing
      · exact ⟨none, fun _ => nothing⟩
  | writeFiles rest currentGroups =>
    obtain ⟨planned, left⟩ := honest
    cases rest with
    | nil =>
      dsimp only
      split_ifs
      · trivial
      · split
        · rename_i e raised
          exact ⟨planned, fun stale => absurd stale (importGroups_error raised)⟩
        · trivial
    | cons change rest =>
      obtain ⟨isPlanned, left⟩ := List.cons_subset.mp left
      dsimp only
      split_ifs
      · exact ⟨planned, left⟩
      · refine ⟨?_, left⟩
        rw [List.forall_mem_append, List.forall_mem_singleton]
        exact ⟨planned, change, isPlanned, rfl⟩
  | ended raised => exact honest

/-- Neither the progress of the call nor a change by others makes what its writes tell untrue. -/
theorem honest_step {after : Call} {action : Action} (honest : Honest plan call)
    (stepped : call.step plan action = some after) : Honest plan after := by
  cases action with
  | call c =>
    cases stepped
    exact honest_advance c honest
  | others dir =>
    cases stepped
    exact honest

/-- What the writes of an application tell is true in every interleaving. -/
theorem honest_run {dir : GraphDirectory} {actions : List Action}
    (ran : run (Call.step plan) (.start plan dir) actions = some call) : Honest plan call :=
  run_invariant (fun _ _ _ honest stepped => honest_step honest stepped) (show Honest plan (.start plan dir) from rfl) ran

/-! ### What an application comes to -/

/-- The checks before the first write pass. -/
def Checked (plan : StructurePlan) (dir : GraphDirectory) : Prop :=
  (∀ change ∈ plan.files, change.isCurrent (dir.current change.node) = true) ∧
    (dir.store.activeFields = plan.groupsBefore ∨ dir.store.activeFields = plan.groups)

/-- A file is written unless it is as planned. -/
def GraphDirectory.settle (dir : GraphDirectory) (change : FileChange) : GraphDirectory :=
  if change.settled dir then dir else dir.write change

def settleAll (files : List FileChange) (dir : GraphDirectory) : GraphDirectory := files.foldl GraphDirectory.settle dir

/-- What an application raises and leaves when nobody else changes the directory. -/
def outcome (c : Caller) (plan : StructurePlan) (dir : GraphDirectory) : Option GroupError × GraphDirectory :=
  if ∀ change ∈ plan.files, change.isCurrent (dir.current change.node) = true then
    if dir.store.activeFields = plan.groupsBefore ∨ dir.store.activeFields = plan.groups then
      if dir.store.activeFields = plan.groups then (none, settleAll plan.files dir)
      else
        match importGroups c dir.store plan with
        | .error e => (some e, settleAll plan.files dir)
        | .ok store => (none, { settleAll plan.files dir with store })
    else (some staleGroups, dir)
  else (some staleFiles, dir)

theorem settle_store (dir : GraphDirectory) (change : FileChange) : (dir.settle change).store = dir.store := by
  rw [GraphDirectory.settle]
  split_ifs
  · rfl
  · exact write_store [change]

theorem settleAll_store (files : List FileChange) (dir : GraphDirectory) : (settleAll files dir).store = dir.store := by
  induction files generalizing dir with
  | nil => rfl
  | cons change files ih =>
    rw [settleAll, List.foldl_cons]
    exact (ih _).trans (settle_store dir change)

/-- Where an application alone is, in terms of the directory it began with. -/
structure Reached (c : Caller) (plan : StructurePlan) (dir : GraphDirectory) (call : Call) : Prop where
  place : match call.progress with
    | .checkFiles rest => call.dir = dir ∧ ∃ done, plan.files = done ++ rest ∧
        ∀ change ∈ done, change.isCurrent (dir.current change.node) = true
    | .writeFiles rest currentGroups => Checked plan dir ∧ currentGroups = dir.store.activeFields ∧
        ∃ done, plan.files = done ++ rest ∧ call.dir = settleAll done dir
    | .ended raised => (raised, call.dir) = outcome c plan dir
  files : .groups ∉ call.writes → call.dir = dir ∨
    Checked plan dir ∧ ∃ done rest, plan.files = done ++ rest ∧ call.dir = settleAll done dir

section Alone

variable {c : Caller} {plan : StructurePlan} {dir : GraphDirectory} {call : Call}

theorem reached_start : Reached c plan dir (.start plan dir) where
  place := ⟨rfl, [], rfl, List.forall_mem_nil _⟩
  files := fun _ => .inl rfl

theorem settleAll_concat (files : List FileChange) (change : FileChange) (dir : GraphDirectory) :
    settleAll (files ++ [change]) dir = (settleAll files dir).settle change := by
  rw [settleAll, List.foldl_append]
  rfl

theorem Reached.advance (reached : Reached c plan dir call) : Reached c plan dir (call.advance c plan) := by
  obtain ⟨place, files⟩ := reached
  obtain ⟨now, progress, writes⟩ := call
  rw [Call.advance]
  cases progress with
  | checkFiles rest =>
    obtain ⟨rfl, done, all, checked⟩ := place
    cases rest with
    | nil =>
      rw [List.append_nil] at all
      rw [← all] at checked
      dsimp only
      split_ifs with current
      · exact ⟨⟨⟨checked, current⟩, rfl, [], rfl, rfl⟩, fun _ => .inl rfl⟩
      · refine ⟨?_, fun _ => .inl rfl⟩
        show (some staleGroups, now) = outcome c plan now
        rw [outcome, if_pos checked, if_neg current]
    | cons change rest =>
      dsimp only
      split_ifs with isCurrent
      · refine ⟨⟨rfl, done ++ [change], ?_, ?_⟩, fun _ => .inl rfl⟩
        · rw [List.append_assoc]
          exact all
        · rw [List.forall_mem_append, List.forall_mem_singleton]
          exact ⟨checked, isCurrent⟩
      · refine ⟨?_, fun _ => .inl rfl⟩
        have isStale : ¬ ∀ change ∈ plan.files, change.isCurrent (now.current change.node) = true := by
          intro all'
          refine isCurrent (all' change ?_)
          rw [all]
          exact List.mem_append_right _ List.mem_cons_self
        show (some staleFiles, now) = outcome c plan now
        rw [outcome, if_neg isStale]
  | writeFiles rest currentGroups =>
    obtain ⟨checked, rfl, done, all, rfl⟩ := place
    cases rest with
    | nil =>
      rw [List.append_nil] at all
      have store := settleAll_store done dir
      dsimp only
      split_ifs with planned
      · refine ⟨?_, fun _ => .inr ⟨checked, done, [], by rw [List.append_nil]; exact all, rfl⟩⟩
        show (none, settleAll done dir) = outcome c plan dir
        rw [outcome, if_pos checked.1, if_pos checked.2, if_pos planned, all]
      · rw [store]
        split
        · rename_i e raised
          refine ⟨?_, fun _ => .inr ⟨checked, done, [], by rw [List.append_nil]; exact all, rfl⟩⟩
          show (some e, settleAll done dir) = outcome c plan dir
          rw [outcome, if_pos checked.1, if_pos checked.2, if_neg planned, raised, all]
        · rename_i after stored
          refine ⟨?_, fun none => absurd (List.mem_append_right _ (List.mem_singleton_self _)) none⟩
          show (none, { settleAll done dir with store := after }) = outcome c plan dir
          rw [outcome, if_pos checked.1, if_pos checked.2, if_neg planned, stored, all]
    | cons change rest =>
      have next : plan.files = (done ++ [change]) ++ rest := by
        rw [List.append_assoc]
        exact all
      have after := settleAll_concat done change dir
      rw [GraphDirectory.settle] at after
      dsimp only
      split_ifs at after ⊢ with isSettled
      · exact ⟨⟨checked, rfl, done ++ [change], next, after.symm⟩,
          fun _ => .inr ⟨checked, done ++ [change], rest, next, after.symm⟩⟩
      · exact ⟨⟨checked, rfl, done ++ [change], next, after.symm⟩,
          fun _ => .inr ⟨checked, done ++ [change], rest, next, after.symm⟩⟩
  | ended raised => exact ⟨place, files⟩

theorem Reached.alone (reached : Reached c plan dir call) (n : Nat) : Reached c plan dir (call.alone c plan n) := by
  induction n generalizing call with
  | zero => exact reached
  | succ n ih => exact ih reached.advance

/-- The steps that an application still makes. -/
def Call.left (plan : StructurePlan) (call : Call) : Nat :=
  match call.progress with
  | .checkFiles rest => rest.length + plan.files.length + 2
  | .writeFiles rest _ => rest.length + 1
  | .ended _ => 0

theorem left_advance (c : Caller) (plan : StructurePlan) (call : Call) :
    (call.advance c plan).left plan ≤ call.left plan - 1 := by
  obtain ⟨now, progress, writes⟩ := call
  rw [Call.advance]
  cases progress with
  | checkFiles rest =>
    cases rest with
    | nil =>
      dsimp only
      split_ifs
      · simp only [Call.left, List.length_nil]
        omega
      · exact Nat.zero_le _
    | cons change rest =>
      dsimp only
      split_ifs
      · simp only [Call.left, List.length_cons]
        omega
      · exact Nat.zero_le _
  | writeFiles rest currentGroups =>
    cases rest with
    | nil =>
      dsimp only
      split_ifs
      · exact Nat.zero_le _
      · split
        · exact Nat.zero_le _
        · exact Nat.zero_le _
    | cons change rest =>
      dsimp only
      split_ifs
      · simp only [Call.left, List.length_cons]
        omega
      · simp only [Call.left, List.length_cons]
        omega
  | ended raised => exact Nat.zero_le _

theorem left_alone (c : Caller) (plan : StructurePlan) (n : Nat) (call : Call) :
    (call.alone c plan n).left plan ≤ call.left plan - n := by
  induction n generalizing call with
  | zero => exact Nat.le_refl _
  | succ n ih =>
    have later := ih (call.advance c plan)
    have now := left_advance c plan call
    rw [Call.alone]
    omega

/-- The whole of an application with nobody else at the directory. -/
def Call.complete (c : Caller) (plan : StructurePlan) (dir : GraphDirectory) : Call :=
  (Call.start plan dir).alone c plan (2 * plan.files.length + 2)

/-- An application that nobody disturbs comes to its `outcome`. -/
theorem complete_eq (c : Caller) (plan : StructurePlan) (dir : GraphDirectory) :
    (Call.complete c plan dir).progress = .ended (outcome c plan dir).1 ∧
      (Call.complete c plan dir).dir = (outcome c plan dir).2 := by
  have reached : Reached c plan dir (Call.complete c plan dir) := reached_start.alone _
  have stopped := left_alone c plan (2 * plan.files.length + 2) (.start plan dir)
  have start : (Call.start plan dir).left plan = plan.files.length + plan.files.length + 2 := rfl
  have nothingLeft : (Call.complete c plan dir).left plan = 0 := by
    rw [Call.complete]
    omega
  have place := reached.place
  revert place nothingLeft
  rw [Call.left]
  generalize Call.complete c plan dir = call
  obtain ⟨now, progress, writes⟩ := call
  intro nothingLeft place
  cases progress with
  | checkFiles rest => cases nothingLeft
  | writeFiles rest currentGroups => cases nothingLeft
  | ended raised =>
    have same : (raised, now) = outcome c plan dir := place
    rw [← same]
    exact ⟨rfl, rfl⟩

end Alone

/-- The application in one step ends in the same way and with the same groups. -/
theorem outcome_applyStructure (c : Caller) (plan : StructurePlan) (dir : GraphDirectory) :
    (outcome c plan dir).1 = (applyStructure c dir plan).1 ∧
      (outcome c plan dir).2.store = (applyStructure c dir plan).2.store := by
  have written : (plan.files.foldl GraphDirectory.write dir).store = dir.store := write_store plan.files
  rw [outcome, applyStructure]
  by_cases files : ∀ change ∈ plan.files, change.isCurrent (dir.current change.node) = true
  · by_cases groups : dir.store.activeFields = plan.groupsBefore ∨ dir.store.activeFields = plan.groups
    · have checked : checkPlan dir plan = .ok () := require_bind_eq_ok.mpr ⟨files, require_eq_ok.mpr groups⟩
      rw [if_pos files, if_pos groups, checked]
      dsimp only
      split_ifs
      · exact ⟨rfl, (settleAll_store _ _).trans written.symm⟩
      · cases importGroups c dir.store plan with
        | error e => exact ⟨rfl, (settleAll_store _ _).trans written.symm⟩
        | ok store => exact ⟨rfl, rfl⟩
    · have checked : checkPlan dir plan = .error staleGroups := by
        rw [checkPlan, require, if_pos files, require, if_neg groups]
        rfl
      rw [if_pos files, if_neg groups, checked]
      exact ⟨rfl, rfl⟩
  · have checked : checkPlan dir plan = .error staleFiles := by
      rw [checkPlan, require, if_neg files]
      rfl
    rw [if_neg files, checked]
    exact ⟨rfl, rfl⟩

/-! ### Files that are as planned -/

theorem read_write (dir : GraphDirectory) (change : FileChange) (key : Option String) :
    (dir.write change).read key = if key = change.node then some change.after else dir.read key := by
  rw [GraphDirectory.write]
  cases isNode : change.node with
  | none =>
    cases key with
    | none => rfl
    | some node => rfl
  | some written =>
    cases key with
    | none => rfl
    | some node =>
      rw [GraphDirectory.read, lookup_dictSet]
      by_cases same : node = written
      · rw [if_pos same, if_pos (congrArg some same)]
      · rw [if_neg same, if_neg fun both => same (Option.some.inj both)]
        rfl

variable {key : Option String}

theorem read_settle (dir : GraphDirectory) (change : FileChange) (other : key ≠ change.node) :
    (dir.settle change).read key = dir.read key := by
  rw [GraphDirectory.settle]
  split_ifs
  · rfl
  · rw [read_write, if_neg other]

theorem read_settleAll (files : List FileChange) (dir : GraphDirectory)
    (others : key ∉ files.map FileChange.node) : (settleAll files dir).read key = dir.read key := by
  induction files generalizing dir with
  | nil => rfl
  | cons change files ih =>
    rw [List.map_cons, List.mem_cons, not_or] at others
    rw [settleAll, List.foldl_cons]
    exact (ih _ others.2).trans (read_settle dir change others.1)

variable {dir : GraphDirectory}

theorem current_of_read {other : GraphDirectory} (same : dir.read key = other.read key) :
    dir.current key = other.current key := by
  cases key with
  | none =>
    have config : dir.config = other.config := same
    rw [GraphDirectory.current, GraphDirectory.current, config]
  | some node => exact same

variable {change : FileChange}

theorem settled_congr {other : GraphDirectory}
    (same : dir.read change.node = other.read change.node) :
    change.settled dir = change.settled other := by
  rw [FileChange.settled, FileChange.settled, same]

theorem settled_settle (unique : change.after.UniqueKeys) (dir : GraphDirectory) :
    change.settled (dir.settle change) = true := by
  rw [GraphDirectory.settle]
  split_ifs with isSettled
  · exact isSettled
  · rw [FileChange.settled, read_write, if_pos rfl, Option.any_some]
    exact Json.pyEq_refl change.after unique

theorem isCurrent_of_settled (settled : change.settled dir = true) :
    change.isCurrent (dir.current change.node) = true := by
  obtain ⟨now, isNow, same⟩ : ∃ now, dir.read change.node = some now ∧ now.pyEq change.after = true := by
    rw [FileChange.settled] at settled
    cases isNow : dir.read change.node with
    | none =>
      rw [isNow] at settled
      cases settled
    | some now =>
      rw [isNow] at settled
      exact ⟨now, rfl, settled⟩
  have current : dir.current change.node = some now := by
    cases isNode : change.node with
    | none =>
      rw [isNode] at isNow
      have config : dir.config = some now := isNow
      rw [GraphDirectory.current, config, Option.getD_some]
    | some node =>
      rw [isNode] at isNow
      exact isNow
  rw [current, FileChange.isCurrent, same, Bool.true_or]

theorem settleAll_of_settled {files : List FileChange}
    (settled : ∀ change ∈ files, change.settled dir = true) : settleAll files dir = dir := by
  induction files with
  | nil => rfl
  | cons change files ih =>
    obtain ⟨first, later⟩ := List.forall_mem_cons.mp settled
    rw [settleAll, List.foldl_cons, GraphDirectory.settle, if_pos first]
    exact ih later

theorem settled_settleAll {files : List FileChange} (distinct : (files.map FileChange.node).Nodup)
    (unique : ∀ change ∈ files, change.after.UniqueKeys) (dir : GraphDirectory) :
    ∀ change ∈ files, change.settled (settleAll files dir) = true := by
  induction files generalizing dir with
  | nil => exact List.forall_mem_nil _
  | cons first files ih =>
    obtain ⟨fresh, distinct⟩ := List.nodup_cons.mp distinct
    obtain ⟨uniqueFirst, uniqueLater⟩ := List.forall_mem_cons.mp unique
    rw [settleAll, List.foldl_cons, List.forall_mem_cons]
    refine ⟨?_, ih distinct uniqueLater (dir.settle first)⟩
    have same : (settleAll files (dir.settle first)).read first.node = (dir.settle first).read first.node :=
      read_settleAll files (dir.settle first) fresh
    exact (settled_congr same).trans (settled_settle uniqueFirst dir)

theorem settleAll_append (first later : List FileChange) (dir : GraphDirectory) :
    settleAll (first ++ later) dir = settleAll later (settleAll first dir) := by
  rw [settleAll, List.foldl_append]
  rfl

/-! ### Repeating an application -/

/-- A plan as it is read back: it was previewed from a bundle that names each node once, and its values are
dictionaries. -/
structure Preview where
  plan : StructurePlan
  made : ∃ machine targetGraph dir bundle, (bundle.nodes.map BundleNode.id).Nodup ∧
    planStructure machine targetGraph dir bundle = .ok plan
  unique : ∀ change ∈ plan.files, change.after.UniqueKeys

theorem planNodes_nodes {machine : Machine} {targetGraph : String} {files : List (String × Json)}
    {nodes : List BundleNode} {planned : List (BundleNode × Json)}
    (done : planNodes machine targetGraph files nodes = .ok planned) : planned.map Prod.fst = nodes := by
  induction nodes generalizing planned with
  | nil =>
    cases done
    rfl
  | cons node nodes ih =>
    obtain ⟨after, -, done⟩ := bind_eq_ok.mp done
    obtain ⟨others, isOthers, same⟩ := bind_eq_ok.mp done
    cases same
    rw [List.map_cons, ih isOthers]

namespace Preview

variable (preview : Preview)

theorem sound : preview.plan.Sound := by
  obtain ⟨machine, targetGraph, dir, bundle, -, planned⟩ := preview.made
  exact planStructure_sound planned

theorem distinct : (preview.plan.files.map FileChange.node).Nodup := by
  obtain ⟨machine, targetGraph, dir, bundle, distinct, planned⟩ := preview.made
  obtain ⟨nodes, after, areNodes, -, -, -, files⟩ := planStructure_eq_ok planned
  have names : (plannedFiles dir nodes after).map FileChange.node = (bundle.nodes.map BundleNode.id).map some ++ [none] := by
    rw [plannedFiles, List.map_append, List.map_map, ← planNodes_nodes areNodes, List.map_map, List.map_map]
    rfl
  rw [files]
  refine List.Nodup.sublist (List.filter_sublist.map _) ?_
  rw [names, List.nodup_append]
  refine ⟨distinct.map (Option.some_injective String), List.nodup_singleton _, ?_⟩
  intro key isNode other isGraph
  obtain ⟨node, -, rfl⟩ := List.mem_map.mp isNode
  rw [List.mem_singleton.mp isGraph]
  exact Option.some_ne_none node

end Preview

section Repeating

variable {preview : Preview} {dir : GraphDirectory}

/-- An application that stopped after some of its files is carried out by repeating it. -/
theorem outcome_settleAll (c : Caller) {done rest : List FileChange} (files : preview.plan.files = done ++ rest)
    (checked : Checked preview.plan dir) :
    outcome c preview.plan (settleAll done dir) = outcome c preview.plan dir := by
  have distinct := preview.distinct
  have unique := preview.unique
  rw [files] at distinct unique
  have distinctDone : (done.map FileChange.node).Nodup :=
    distinct.sublist ((List.sublist_append_left done rest).map _)
  have settled := settled_settleAll distinctDone
    (fun change mem => unique change (List.mem_append_left _ mem)) dir
  have store := settleAll_store done dir
  have current : ∀ change ∈ preview.plan.files, change.isCurrent ((settleAll done dir).current change.node) = true := by
    intro change mem
    by_cases isDone : change ∈ done
    · exact isCurrent_of_settled (settled change isDone)
    · have isRest : change ∈ rest := by
        rw [files] at mem
        exact (List.mem_append.mp mem).resolve_left isDone
      have others : change.node ∉ done.map FileChange.node := by
        rw [List.map_append] at distinct
        exact fun inDone => (List.nodup_append.mp distinct).2.2 _ inDone _ (List.mem_map_of_mem isRest) rfl
      rw [current_of_read (read_settleAll done dir others)]
      exact checked.1 change mem
  have again : settleAll preview.plan.files (settleAll done dir) = settleAll preview.plan.files dir := by
    rw [files, settleAll_append, settleAll_of_settled settled, settleAll_append]
  rw [outcome, outcome, if_pos current, if_pos checked.1, store, if_pos checked.2, if_pos checked.2, again]

variable {c : Caller}

theorem activeFields_of_imported {db db' : GroupStore} {plan : StructurePlan} (sound : plan.Sound)
    (imported : Imported c plan db db') (group : GroupFields) :
    group ∈ db'.activeFields ↔ group ∈ plan.groups := by
  constructor
  · intro mem
    obtain ⟨document, inStore, rfl⟩ := List.mem_map.mp mem
    obtain ⟨inStore, isActive⟩ := List.mem_filter.mp inStore
    obtain ⟨value, inPlan, rfl⟩ := imported.active sound inStore ((Bool.not_eq_true' _).mp isActive)
    rw [savedGroup_fields]
    exact inPlan
  · intro inPlan
    refine List.mem_map.mpr ⟨savedGroup c db.groups group, List.mem_filter.mpr ⟨?_, ?_⟩, savedGroup_fields⟩
    · exact (imported.groups _).mpr (.inl ⟨group, inPlan, rfl⟩)
    · rw [savedGroup_active, Bool.not_false]

theorem outcome_none (through : (outcome c preview.plan dir).1 = none) :
    (∀ change ∈ preview.plan.files, change.settled (outcome c preview.plan dir).2 = true) ∧
      ∀ group, group ∈ (outcome c preview.plan dir).2.store.activeFields ↔ group ∈ preview.plan.groups := by
  have settled := settled_settleAll preview.distinct preview.unique dir
  revert through
  rw [outcome]
  split_ifs with current groups planned
  · intro
    refine ⟨settled, fun group => ?_⟩
    rw [settleAll_store, planned]
  · split
    · exact nofun
    · rename_i store stored
      intro
      exact ⟨settled, activeFields_of_imported preview.sound (importGroups_eq_ok preview.sound stored)⟩
  · exact nofun
  · exact nofun

theorem outcome_some {e : GroupError} (rejected : (outcome c preview.plan dir).1 = some e) :
    (outcome c preview.plan dir).2.store = dir.store ∧
      (e ∈ stalePreview ∧ (outcome c preview.plan dir).2 = dir ∨
        ∀ change ∈ preview.plan.files, change.settled (outcome c preview.plan dir).2 = true) := by
  have settled := settled_settleAll preview.distinct preview.unique dir
  revert rejected
  rw [outcome]
  split_ifs with current groups planned
  · exact nofun
  · split
    · intro
      exact ⟨settleAll_store _ _, .inr settled⟩
    · exact nofun
  · intro same
    cases same
    exact ⟨rfl, .inl ⟨by decide, rfl⟩⟩
  · intro same
    cases same
    exact ⟨rfl, .inl ⟨by decide, rfl⟩⟩

theorem outcome_again (c : Caller) (settled : ∀ change ∈ preview.plan.files, change.settled dir = true)
    (groups : dir.store.activeFields = preview.plan.groups) : outcome c preview.plan dir = (none, dir) := by
  rw [outcome, if_pos fun change mem => isCurrent_of_settled (settled change mem), if_pos (.inr groups), if_pos groups,
    settleAll_of_settled settled]

end Repeating

/-! ### Rejections and interruptions -/

/-- What a rejection and an interruption of an application of a plan leave. -/
structure Recovers (plan : StructurePlan) : Prop where
  /-- Whatever others do: a rejected application has written nothing but planned files, and nothing at all when the
  preview was stale. -/
  rejected : ∀ dir actions call e, run (Call.step plan) (.start plan dir) actions = some call →
    call.progress = .ended (some e) →
      (∀ write ∈ call.writes, ∃ change ∈ plan.files, write = .file change) ∧ (e ∈ stalePreview → call.writes = [])
  /-- With nobody else, it leaves the groups, and the files are all as they were or all as planned. -/
  leaves : ∀ c dir e, (Call.complete c plan dir).progress = .ended (some e) →
    (Call.complete c plan dir).dir.store = dir.store ∧
      (e ∈ stalePreview ∧ (Call.complete c plan dir).dir = dir ∨
        ∀ change ∈ plan.files, change.settled (Call.complete c plan dir).dir = true)
  /-- Repeated after any number of steps before the groups were changed, it ends as it would have ended. -/
  resumed : ∀ c c' dir n, .groups ∉ ((Call.start plan dir).alone c plan n).writes →
    (Call.complete c' plan ((Call.start plan dir).alone c plan n).dir).progress =
        (Call.complete c' plan dir).progress ∧
      (Call.complete c' plan ((Call.start plan dir).alone c plan n).dir).dir = (Call.complete c' plan dir).dir
  /-- It ends, and when nothing is raised it leaves the planned files and groups. -/
  ends : ∀ c dir, ∃ raised, (Call.complete c plan dir).progress = .ended raised ∧
    (raised = none → (∀ change ∈ plan.files, change.settled (Call.complete c plan dir).dir = true) ∧
      ∀ group, group ∈ (Call.complete c plan dir).dir.store.activeFields ↔ group ∈ plan.groups)
  /-- Repeated after it went through, it changes nothing when the groups are read back in the planned order. -/
  repeated : ∀ c c' dir, (Call.complete c plan dir).progress = .ended none →
    (Call.complete c plan dir).dir.store.activeFields = plan.groups →
      (Call.complete c' plan (Call.complete c plan dir).dir).progress = .ended none ∧
        (Call.complete c' plan (Call.complete c plan dir).dir).dir = (Call.complete c plan dir).dir

/-- A machine that has all node types and takes the fields as they are. -/
def openMachine : Machine := ⟨fun _ => true, fun _ => .ok (), .ok, fun _ _ => .ok (.obj []), 1⟩

/-- A source graph with a writer, who is the only member of a group. -/
def writerBundle : Bundle where
  graph := [("name", .str "work")]
  groups := [⟨"h", "writers", "", ⟨2, 0, 1, 1, unit_pos, unit_pos⟩, [{ nodeId := "w" }], false⟩]
  nodes := [⟨"w", [("type_id", .str "agent_node")]⟩]

/-- A graph of two nodes, and the operations that put them into a group. -/
def pairGraph : GroupSystem := .start none [("a", .obj []), ("b", .obj [])]

def grouping : List GroupOp := [.command {} (.create pair false "g")]

/-- The application has raised a conflict. -/
def Call.rejected (call : Call) : Bool :=
  match call.progress with
  | .ended (some (.sync _)) => true
  | _ => false

end AgentPark.Groups
