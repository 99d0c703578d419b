import AgentPark.Cron.Repository
import AgentPark.Groups.Lifecycle
import AgentPark.Lib.Raising
import AgentPark.Runtime.State

/-!
# What belongs to the nodes of a graph

The directories of the nodes with their files and memories, the configuration of the graph, the
runtime states, and the two databases of a graph.

* `World.renameRuntime` and `World.updateRuntime` are operations of `RuntimeStateMemoryStore`.
-/

namespace AgentPark.Nodes

open Lib

/-- An exception, as far as `rename_node_instance` tells exceptions apart. -/
inductive Failure where
  | http (status : Nat) (detail : String)
  | conflict (text : String)
  | other (kind text : String)
deriving DecidableEq

/-- `str(exc)`. -/
def Failure.text : Failure → String
  | http status detail => toString status ++ ": " ++ detail
  | conflict text | other _ text => text

/-- `type(exc).__name__`. -/
def Failure.kind : Failure → String
  | http _ _ => "HTTPException"
  | conflict _ => "GroupConflict"
  | other kind _ => kind

/-- The status that the route answers with. -/
def Failure.status : Failure → Nat
  | http status _ => status
  | conflict _ => 409
  | other _ _ => 500

/-! ### Memories -/

/-- The row of the table `owner`. -/
structure MemoryOwner where
  graphId : String
  nodeId : String
  schemaVersion : Nat := 1
  revision : Nat := 0
deriving DecidableEq

/-- The owner, without the revision that every change counts up. -/
def MemoryOwner.identity (owner : MemoryOwner) : String × String × Nat :=
  (owner.graphId, owner.nodeId, owner.schemaVersion)

/-- `state.sqlite3`: its owner and the leases of its jobs. -/
structure NodeMemory where
  owner : Option MemoryOwner
  leases : List Rat := []
deriving DecidableEq

def NodeMemory.identity (memory : NodeMemory) : Option (String × String × Nat) :=
  memory.owner.map MemoryOwner.identity

/-- `SELECT 1 FROM jobs WHERE lease_until>?`. -/
def NodeMemory.leased (memory : NodeMemory) (now : Rat) : Bool := memory.leases.any (now < ·)

/-- `rebind_memory`, for two nodes of one graph. -/
def NodeMemory.rebind (memory : NodeMemory) (now : Rat) (graphId source target : String) :
    Except Failure NodeMemory :=
  if memory.identity = some (graphId, target, 1) then .ok memory
  else if memory.identity ≠ some (graphId, source, 1) then
    .error (.other "ValueError" "memory owner does not match the node being moved")
  else if memory.leased now then
    .error (.other "ValueError"
      "node memory consolidation is running; change identity after it completes")
  else
    .ok { memory with
      owner := memory.owner.map fun owner =>
        { owner with graphId, nodeId := target, revision := owner.revision + 1 } }

theorem NodeMemory.identity_rebind {memory bound : NodeMemory} {now : Rat}
    {graphId source target : String} (ran : memory.rebind now graphId source target = .ok bound) :
    bound.identity = some (graphId, target, 1) := by
  unfold NodeMemory.rebind at ran
  split_ifs at ran with already stranger leased
  · cases ran
    exact already
  · cases ran
    rw [not_not] at stranger
    obtain ⟨owner, isOwner, identity⟩ := Option.map_eq_some_iff.mp stranger
    have version : owner.schemaVersion = 1 := by
      unfold MemoryOwner.identity at identity
      injection identity with _ rest
      injection rest
    unfold NodeMemory.identity
    simp only [isOwner, Option.map_some, MemoryOwner.identity, version]

theorem NodeMemory.identity_of_rebind {memory bound : NodeMemory} {now : Rat}
    {graphId source target : String} (ran : memory.rebind now graphId source target = .ok bound) :
    memory.identity = some (graphId, target, 1) ∨ memory.identity = some (graphId, source, 1) := by
  unfold NodeMemory.rebind at ran
  split_ifs at ran with already stranger leased
  · exact .inl already
  · exact .inr (not_not.mp stranger)

/-! ### Directories -/

/-- What a name in a directory stands for.  A folder may hold the database of a memory. -/
inductive Entry where
  | file (text : String)
  | folder (memory : Option NodeMemory)
deriving DecidableEq

/-- The entry, with the owner of a memory but without its revision. -/
def Entry.identity : Entry → String ⊕ Option (Option (String × String × Nat))
  | file text => .inl text
  | folder memory => .inr (memory.map NodeMemory.identity)

/-- The directory of a node. -/
@[ext] structure Directory where
  entries : List (String × Entry)
  distinct : (entries.map Prod.fst).Nodup := by decide

namespace Directory

/-- `os.listdir`. -/
def names (d : Directory) : List String := d.entries.map Prod.fst

def get (d : Directory) (name : String) : Option Entry := d.entries.lookup name

/-- `atomic_write_text`, or a change of the database in a folder. -/
def put (d : Directory) (name : String) (entry : Entry) : Directory where
  entries := dictSet d.entries name entry
  distinct := nodup_dictSet d.distinct name entry

theorem get_put (d : Directory) (name other : String) (entry : Entry) :
    (d.put name entry).get other = if other = name then some entry else d.get other := by
  unfold get put
  exact lookup_dictSet d.entries name other entry

/-- The entries with the entry `a` under the name `b`. -/
def renamed (entries : List (String × Entry)) (a b : String) : List (String × Entry) :=
  (entries.filter fun entry => entry.1 ≠ b).map fun entry =>
    (if entry.1 = a then b else entry.1, entry.2)

variable {entries : List (String × Entry)}

theorem nodup_renamed (distinct : (entries.map Prod.fst).Nodup) (a b : String) :
    ((renamed entries a b).map Prod.fst).Nodup := by
  unfold renamed
  rw [List.map_map]
  have kept : ((entries.filter fun entry => entry.1 ≠ b).map Prod.fst).Nodup :=
    distinct.sublist (List.filter_sublist.map Prod.fst)
  have others : ∀ key ∈ (entries.filter fun entry => entry.1 ≠ b).map Prod.fst, key ≠ b := by
    intro key mem
    obtain ⟨entry, inRows, rfl⟩ := List.mem_map.mp mem
    simpa using (List.mem_filter.mp inRows).2
  have same : (Prod.fst ∘ fun entry : String × Entry =>
      (if entry.1 = a then b else entry.1, entry.2)) =
        (fun key => if key = a then b else key) ∘ Prod.fst := rfl
  rw [same, ← List.map_map]
  apply List.Nodup.map_on _ kept
  intro x memX y memY equal
  have notX := others x memX
  have notY := others y memY
  split_ifs at equal with isX isY isY
  · rw [isX, isY]
  · exact absurd equal.symm notY
  · exact absurd equal notX
  · exact equal

/-- `Path.rename`, inside the directory; a file of the new name is replaced. -/
def rename (d : Directory) (a b : String) : Except Failure Directory :=
  if a ∉ d.names then .error (.other "FileNotFoundError" a)
  else if a = b then .ok d
  else .ok ⟨renamed d.entries a b, nodup_renamed d.distinct a b⟩

variable {a b : String}

theorem renamed_of_free (free : b ∉ entries.map Prod.fst) :
    renamed entries a b = entries.map fun entry => (if entry.1 = a then b else entry.1, entry.2) := by
  have all : entries.filter (fun entry => entry.1 ≠ b) = entries := by
    apply List.filter_eq_self.mpr
    intro entry mem
    simpa using fun isB : entry.1 = b => free (isB ▸ List.mem_map_of_mem mem)
  unfold renamed
  rw [all]

theorem renamed_back (free : b ∉ entries.map Prod.fst) (other : a ≠ b) :
    renamed (renamed entries a b) b a = entries := by
  rw [renamed_of_free free, renamed_of_free, List.map_map]
  · conv_rhs => rw [← List.map_id entries]
    apply List.map_congr_left
    intro entry mem
    have notB : entry.1 ≠ b := fun isB => free (isB ▸ List.mem_map_of_mem mem)
    by_cases isA : entry.1 = a
    · subst isA
      simp
    · simp [isA, notB]
  · -- no name is `a` any more
    intro mem
    rw [List.map_map] at mem
    obtain ⟨entry, -, isA⟩ := List.mem_map.mp mem
    dsimp only [Function.comp_apply] at isA
    split_ifs at isA with wasA
    · exact other isA.symm
    · exact wasA isA

variable {d d' : Directory}

theorem rename_back (free : b ∉ d.names) (ran : d.rename a b = .ok d') : d'.rename b a = .ok d := by
  unfold rename at ran
  split_ifs at ran with missing same
  · cases ran
    subst same
    exact absurd missing free
  · cases ran
    have there : b ∈ names ⟨renamed d.entries a b, nodup_renamed d.distinct a b⟩ := by
      change b ∈ (renamed d.entries a b).map Prod.fst
      obtain ⟨entry, mem, isA⟩ := List.mem_map.mp missing
      rw [renamed_of_free free, List.map_map]
      exact List.mem_map.mpr ⟨entry, mem, if_pos isA⟩
    unfold rename
    rw [if_neg (not_not.mpr there), if_neg (Ne.symm same)]
    exact congrArg Except.ok (Directory.ext (renamed_back free same))

/-- The folder of the long-term memory. -/
def memoryFolder : String := "long_term_memory"

/-- The memory of the node, when there is one. -/
def memory (d : Directory) : Option NodeMemory :=
  match d.get memoryFolder with
  | some (.folder memory) => memory
  | _ => none

/-- `rebind_memory` on a directory. -/
def rebind (d : Directory) (now : Rat) (graphId source target : String) :
    Except Failure Directory :=
  match d.memory with
  | none => .ok d
  | some memory => do
    let bound ← memory.rebind now graphId source target
    return d.put memoryFolder (.folder (some bound))

/-- What the directory holds, up to the revision of its memory. -/
def view (d : Directory) (name : String) : Option (String ⊕ Option (Option (String × String × Nat))) :=
  (d.get name).map Entry.identity

theorem view_memoryFolder {memory : NodeMemory} (found : d.memory = some memory) :
    d.view memoryFolder = some (.inr (some memory.identity)) := by
  unfold Directory.memory at found
  split at found
  · rename_i held isFolder
    cases found
    unfold view
    rw [isFolder]
    rfl
  · cases found

theorem memory_congr (same : d.get memoryFolder = d'.get memoryFolder) :
    d.memory = d'.memory := by
  unfold Directory.memory
  rw [same]

theorem memory_put (d : Directory) (memory : Option NodeMemory) :
    (d.put memoryFolder (.folder memory)).memory = memory := by
  unfold Directory.memory
  rw [get_put, if_pos rfl]

theorem get_rebind {now : Rat} {graphId source target : String}
    (ran : d.rebind now graphId source target = .ok d') {name : String}
    (other : name ≠ memoryFolder) : d'.get name = d.get name := by
  unfold rebind at ran
  split at ran
  · cases ran
    rfl
  · obtain ⟨bound, -, rest⟩ := bind_eq_ok.mp ran
    cases rest
    rw [get_put, if_neg other]

theorem memory_rebind {now : Rat} {graphId source target : String}
    (ran : d.rebind now graphId source target = .ok d') :
    (d.memory = none ∧ d' = d) ∨
      ∃ memory bound, d.memory = some memory ∧ d'.memory = some bound ∧
        memory.rebind now graphId source target = .ok bound := by
  unfold rebind at ran
  cases found : d.memory with
  | none =>
    rw [found] at ran
    cases ran
    exact .inl ⟨rfl, rfl⟩
  | some memory =>
    rw [found] at ran
    obtain ⟨bound, isBound, rest⟩ := bind_eq_ok.mp ran
    cases rest
    exact .inr ⟨memory, bound, rfl, memory_put d (some bound), isBound⟩

end Directory

/-! ### The world -/

/-- Everything that belongs to the nodes of a graph. -/
structure World where
  dirs : String → Option Directory
  graph : Option String
  runtime : String → Option Runtime.RuntimeState
  cron : Option Cron.CronDatabase
  groups : Option Groups.GroupStore

namespace World

/-- `RuntimeStateMemoryStore.snapshot`. -/
def runtimeOf (w : World) (id : String) : Runtime.RuntimeState := (w.runtime id).getD {}

/-- `RuntimeStateMemoryStore.replace`. -/
def replaceRuntime (w : World) (id : String) (state : Runtime.RuntimeState) : World :=
  { w with runtime := Function.update w.runtime id (some state) }

/-- `RuntimeStateMemoryStore.update`. -/
def updateRuntime (w : World) (id : String) (mutate : Runtime.RuntimeState → Runtime.RuntimeState) :
    World :=
  if mutate (w.runtimeOf id) = w.runtimeOf id then w
  else w.replaceRuntime id (mutate (w.runtimeOf id))

/-- `RuntimeStateMemoryStore.rename`. -/
def renameRuntime (w : World) (old new : String) : World :=
  if old = new then w
  else
    let popped := Function.update w.runtime old none
    match w.runtime old with
    | none => { w with runtime := popped }
    | some state => { w with runtime := Function.update popped new (some state) }

/-- A change of the directory of a node. -/
def inDirectory (w : World) (id : String) (f : Directory → Except Failure Directory) :
    Except Failure World :=
  match w.dirs id with
  | none => .error (.other "FileNotFoundError" id)
  | some d => do
    let d' ← f d
    return { w with dirs := Function.update w.dirs id (some d') }

/-- `os.rename` of the directory of a node; only an empty directory is replaced. -/
def renameDirectory (w : World) (a b : String) : Except Failure World :=
  match w.dirs a with
  | none => .error (.other "FileNotFoundError" a)
  | some d =>
    if (w.dirs b).any (fun target => !target.entries.isEmpty) then .error (.other "OSError" b)
    else .ok { w with dirs := Function.update (Function.update w.dirs a none) b (some d) }

/-- `atomic_write_text` into the directory of a node, which is made when it is missing. -/
def writeFile (w : World) (id name text : String) : World :=
  let d := (w.dirs id).getD { entries := [] }
  { w with dirs := Function.update w.dirs id (some (d.put name (.file text))) }

end World

/-! ### Schedules -/

/-- `UPDATE jobs SET node_id=? WHERE node_id=?`. -/
def renameJobs (old new : String) (jobs : List Cron.Job) : List Cron.Job :=
  updateWhere (fun job => job.nodeId = old) (fun job => { job with nodeId := new }) jobs

/-- `UPDATE runs SET node_id=? WHERE node_id=?`. -/
def renameRuns (old new : String) (runs : List Cron.Run) : List Cron.Run :=
  updateWhere (fun run => run.nodeId = old) (fun run => { run with nodeId := new }) runs

/-- `cron_node_rename`, up to its `yield`. -/
def cronNodeRename (db : Cron.CronDatabase) (old new : String) :
    Except Failure Cron.CronDatabase :=
  if db.jobs.any (fun job => job.nodeId = new) then
    .error (.other "ValueError" "target node identity already owns cron schedules")
  else if owners : ((renameJobs old new db.jobs).map Cron.Job.owner).Nodup then
    .ok {
      jobs := renameJobs old new db.jobs
      runs := renameRuns old new db.runs
      jobIds := by
        have kept : (renameJobs old new db.jobs).map Cron.Job.id = db.jobs.map Cron.Job.id :=
          map_updateWhere fun _ => rfl
        rw [kept]
        exact db.jobIds
      owners
      runIds := by
        have kept : (renameRuns old new db.runs).map Cron.Run.id = db.runs.map Cron.Run.id :=
          map_updateWhere fun _ => rfl
        rw [kept]
        exact db.runIds
      deadlines := by
        have kept :
            (renameRuns old new db.runs).map Cron.Run.deadline = db.runs.map Cron.Run.deadline :=
          map_updateWhere fun _ => rfl
        rw [kept]
        exact db.deadlines }
  else .error (.other "IntegrityError" "UNIQUE constraint failed: jobs.node_id, jobs.name")

end AgentPark.Nodes
