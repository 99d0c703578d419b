import AgentPark.Restart.Capture

/-!
# Putting the captured items back

`_recover_pending_nodes_locked` visits the tags one after the other, and `_claim_and_enqueue` claims
a tag, puts the items of its checkpoint in front of those of the node, and takes all back when this
fails.  Items go on arriving at the nodes, and runners take them.
-/

namespace AgentPark.Restart

open Lib

/-! ### The items of a node -/

/-- Each item that was there or has arrived is served or pending, once and in order, and the items that
were put back stand together behind those that were served before. -/
def Accounts (since : Since) (pending : List Item) : Prop :=
  match since.restored with
  | none => since.served ++ pending = since.start ++ since.arrived
  | some items => ∃ front back, since.start ++ since.arrived = front ++ back ∧
      since.served ++ pending = front ++ items ++ back ∧ front.length ≤ since.served.length

theorem accounts_start (pending : List Item) : Accounts { start := pending } pending := by
  change [] ++ pending = pending ++ []
  rw [List.append_nil, List.nil_append]

theorem Accounts.arrive {since : Since} {pending : List Item} (accounts : Accounts since pending)
    (item : Item) : Accounts { since with arrived := since.arrived ++ [item] } (pending ++ [item]) := by
  unfold Accounts at *
  cases restored : since.restored with
  | none =>
    rw [restored] at accounts
    dsimp only at accounts ⊢
    rw [← List.append_assoc, accounts, List.append_assoc]
  | some items =>
    rw [restored] at accounts
    obtain ⟨front, back, whole, split, le⟩ := accounts
    refine ⟨front, back ++ [item], ?_, ?_, le⟩
    · rw [← List.append_assoc, whole, List.append_assoc]
    · rw [← List.append_assoc, split, List.append_assoc _ back]

theorem Accounts.take {since : Since} {item : Item} {pending : List Item}
    (accounts : Accounts since (item :: pending)) :
    Accounts { since with served := since.served ++ [item] } pending := by
  unfold Accounts at *
  cases restored : since.restored with
  | none =>
    rw [restored] at accounts
    dsimp only at accounts ⊢
    rw [List.append_assoc]
    exact accounts
  | some items =>
    rw [restored] at accounts
    obtain ⟨front, back, whole, split, le⟩ := accounts
    refine ⟨front, back, whole, ?_, ?_⟩
    · rw [List.append_assoc]
      exact split
    · rw [List.length_append]
      omega

theorem Accounts.restore {since : Since} {pending : List Item} (accounts : Accounts since pending)
    (fresh : since.restored = none) (items : List Item) :
    Accounts { since with restored := some items } (items ++ pending) := by
  unfold Accounts at accounts
  rw [fresh] at accounts
  exact ⟨since.served, pending, accounts.symm, by rw [List.append_assoc], Nat.le_refl _⟩

/-! ### Steps of the nodes -/

/-- A node goes from one runtime state to the next. -/
structure NodeStep (s : System) (node : Node) (runtime : Runtime) (since : Since) : Prop where
  seq : runtime.nodeEventSeq = (s.runtime node).nodeEventSeq + 1
  restored : since.restored = (s.since node).restored
  accounts : Accounts (s.since node) (s.runtime node).pending → Accounts since runtime.pending

def RestartAction.OfNode : RestartAction → Prop
  | .appendPending _ _ | .take _ | .finish _ | .setState _ _ => True
  | _ => False

theorem restartStep_node {nodes : List Node} {isClock : Node → Bool} {s s' : System}
    {action : RestartAction} (stepped : restartStep nodes isClock s action = some s')
    (ofNode : action.OfNode) :
    ∃ node runtime since, NodeStep s node runtime since ∧ s' = s.setRuntime node runtime since := by
  cases action with
  | appendPending node item =>
    cases stepped
    refine ⟨node, _, _, ?_, rfl⟩
    exact ⟨rfl, rfl, fun accounts => accounts.arrive item⟩
  | take node =>
    rw [restartStep] at stepped
    cases pending : (s.runtime node).pending with
    | nil =>
      rw [pending] at stepped
      cases stepped
    | cons item rest =>
      rw [pending] at stepped
      dsimp only at stepped
      split_ifs at stepped with idle
      cases stepped
      refine ⟨node, _, _, ?_, rfl⟩
      refine ⟨rfl, rfl, fun accounts => ?_⟩
      rw [pending] at accounts
      exact accounts.take
  | finish node =>
    rw [restartStep] at stepped
    split_ifs at stepped with idle
    cases stepped
    refine ⟨node, _, _, ?_, rfl⟩
    exact ⟨rfl, rfl, id⟩
  | setState node state =>
    rw [restartStep] at stepped
    split_ifs at stepped with same
    cases stepped
    refine ⟨node, _, _, ?_, rfl⟩
    exact ⟨rfl, rfl, id⟩
  | capture | recover _ | complete _ _ | advance _ | release | crash => exact ofNode.elim

/-! ### The loop over the tags -/

/-- A tag has nothing to put back, or its items are put back. -/
def Recovered (s : System) (before : Files) (tag : Tag) : Prop :=
  tag.status = .completed ∨ tag.status = .claimed s.owner ∨
    ∃ checkpoint, before.states.lookup tag.statePath = some checkpoint ∧
      (s.since tag.node).restored = some (restoredItems s.owner tag checkpoint)

/-- Where the loop stands.  `current` is the name it is at, when it is at one. -/
structure Visiting (s : System) (loop : Loop) (current : List String) : Prop where
  names : (current ++ loop.names).Nodup
  named : ∀ name tag, loop.before.tags.lookup name = some tag →
    tagName tag.node = some name ∧ tag.statePath.name = name
  tags : ∀ name ∈ loop.names, s.files.tags.lookup name = loop.before.tags.lookup name
  states : ∀ name ∈ loop.names, ∀ tag, loop.before.tags.lookup name = some tag →
    s.files.states.lookup tag.statePath = loop.before.states.lookup tag.statePath
  fresh : ∀ node, ∀ name ∈ loop.names, tagName node = some name → (s.since node).restored = none
  done : ∀ name tag, loop.before.tags.lookup name = some tag → name ∉ current ++ loop.names →
    loop.failed = true ∨ Recovered s loop.before tag

section
variable {s s' : System} {loop : Loop} {current : List String} {name : String} {files : Files}

theorem Visiting.congr (visiting : Visiting s loop current)
    (tags : ∀ name ∈ loop.names, s'.files.tags.lookup name = s.files.tags.lookup name)
    (states : ∀ name ∈ loop.names, ∀ tag, loop.before.tags.lookup name = some tag →
      s'.files.states.lookup tag.statePath = s.files.states.lookup tag.statePath)
    (owner : s'.owner = s.owner)
    (restored : ∀ node name, tagName node = some name → name ∉ current →
      (s'.since node).restored = (s.since node).restored) : Visiting s' loop current where
  names := visiting.names
  named := visiting.named
  tags name mem := (tags name mem).trans (visiting.tags name mem)
  states name mem tag found := (states name mem tag found).trans (visiting.states name mem tag found)
  fresh node name mem named := by
    have notMem : name ∉ current := fun inCurrent =>
      List.disjoint_of_nodup_append visiting.names inCurrent mem
    rw [restored node name named notMem]
    exact visiting.fresh node name mem named
  done name tag found notMem := by
    have notCurrent : name ∉ current := fun inCurrent => notMem (List.mem_append_left _ inCurrent)
    have same := restored tag.node name (visiting.named name tag found).1 notCurrent
    unfold Recovered
    rw [owner, same]
    exact visiting.done name tag found notMem

theorem Visiting.go (visiting : Visiting s loop current) (phase : Phase) :
    Visiting (s.go s.files phase) loop current :=
  visiting.congr (fun _ _ => rfl) (fun _ _ _ _ => rfl) rfl fun _ _ _ _ => rfl

theorem Visiting.atNode (visiting : Visiting s loop [name]) {node : Node}
    (named : tagName node = some name) (files : s'.files = s.files) (owner : s'.owner = s.owner)
    (others : ∀ other, other ≠ node → s'.since other = s.since other) : Visiting s' loop [name] := by
  refine visiting.congr (fun _ _ => by rw [files]) (fun _ _ _ _ => by rw [files]) owner ?_
  intro other otherName named' notMem
  rw [others]
  intro same
  rw [same, named] at named'
  exact notMem (List.mem_singleton.mpr (Option.some.inj named').symm)

theorem Visiting.write (visiting : Visiting s loop [name]) {paths : List StatePath}
    (differ : Differ s.files files [name] paths) (own : ∀ path ∈ paths, path.name = name) (phase : Phase) :
    Visiting (s.go files phase) loop [name] := by
  have other : ∀ other ∈ loop.names, other ≠ name := by
    intro other mem same
    exact List.disjoint_of_nodup_append visiting.names (List.mem_singleton.mpr same) mem
  refine visiting.congr (fun other' mem => ?_) (fun other' mem tag found => ?_) rfl fun _ _ _ _ => rfl
  · refine differ.tags other' fun inNames => ?_
    exact other other' mem (List.mem_singleton.mp inNames)
  · refine differ.states tag.statePath fun inPaths => ?_
    exact other other' mem ((visiting.named other' tag found).2.symm.trans (own _ inPaths))

theorem Visiting.pop {names : List String} (visiting : Visiting s loop [])
    (isNames : loop.names = name :: names) : Visiting s { loop with names } [name] where
  names := by
    have distinct := visiting.names
    rw [isNames] at distinct
    exact distinct
  named := visiting.named
  tags other mem := visiting.tags other (isNames ▸ List.mem_cons_of_mem name mem)
  states other mem := visiting.states other (isNames ▸ List.mem_cons_of_mem name mem)
  fresh node other mem := visiting.fresh node other (isNames ▸ List.mem_cons_of_mem name mem)
  done other tag found notMem := by
    refine visiting.done other tag found ?_
    rw [isNames]
    exact notMem

theorem Visiting.pass (visiting : Visiting s loop [name])
    (dealt : ∀ tag, loop.before.tags.lookup name = some tag → Recovered s loop.before tag) :
    Visiting s loop [] where
  names := (List.nodup_append.mp visiting.names).2.1
  named := visiting.named
  tags := visiting.tags
  states := visiting.states
  fresh := visiting.fresh
  done other tag found notMem := by
    by_cases same : other = name
    · subst same
      exact .inr (dealt tag found)
    · exact visiting.done other tag found (by simp [same] at notMem ⊢; exact notMem)

theorem Visiting.fail (visiting : Visiting s loop [name]) : Visiting s loop.fail [] where
  names := (List.nodup_append.mp visiting.names).2.1
  named := visiting.named
  tags := visiting.tags
  states := visiting.states
  fresh := visiting.fresh
  done _ _ _ _ := .inl rfl

end

/-! ### The claim of a tag -/

/-- A call of `_claim_and_enqueue`, when the tag has the status `status`. -/
structure Claiming (s : System) (loop : Loop) (claim : Claim) (status : TagStatus) : Prop where
  visiting : Visiting s loop [claim.name]
  named : tagName claim.tag.node = some claim.name
  tag : s.files.tags.lookup claim.name = some { claim.tag with status }
  before : loop.before.tags.lookup claim.name = some claim.tag
  checkpoint : loop.before.states.lookup claim.tag.statePath = some claim.checkpoint

/-- This process has not enqueued the checkpoint of the claim. -/
def Free (s : System) (claim : Claim) : Prop :=
  Event.enqueued s.owner claim.tag.restartId claim.tag.node ∉ s.events

/-- The runtime state that a claim has read is the one of the node until its number goes on. -/
structure Unchanged (s : System) (claim : Claim) : Prop where
  le : claim.current.nodeEventSeq ≤ (s.runtime claim.tag.node).nodeEventSeq
  same : (s.runtime claim.tag.node).nodeEventSeq = claim.current.nodeEventSeq →
    s.runtime claim.tag.node = claim.current
  fresh : (s.since claim.tag.node).restored = none

/-- The items of a claim are put back, and can be taken away until the number of the node goes on. -/
structure Revertible (s : System) (claim : Claim) : Prop where
  le : (restoredRuntime s.owner claim).nodeEventSeq ≤ (s.runtime claim.tag.node).nodeEventSeq
  same : (s.runtime claim.tag.node).nodeEventSeq = (restoredRuntime s.owner claim).nodeEventSeq →
    (s.since claim.tag.node).served ++ claim.current.pending =
      (s.since claim.tag.node).start ++ (s.since claim.tag.node).arrived
  restored : (s.since claim.tag.node).restored = some (restoredItems s.owner claim.tag claim.checkpoint)

section
variable {s : System} {loop : Loop} {claim : Claim} {status : TagStatus} {node : Node}
variable {runtime : Runtime} {since : Since}

theorem runtime_setRuntime_self (s : System) (node : Node) (runtime : Runtime) (since : Since) :
    (s.setRuntime node runtime since).runtime node = runtime := by
  simp [System.setRuntime]

theorem runtime_setRuntime_of_ne (s : System) {node other : Node} (ne : other ≠ node)
    (runtime : Runtime) (since : Since) :
    (s.setRuntime node runtime since).runtime other = s.runtime other := by
  simp [System.setRuntime, ne]

theorem since_setRuntime_self (s : System) (node : Node) (runtime : Runtime) (since : Since) :
    (s.setRuntime node runtime since).since node = since := by
  simp [System.setRuntime]

theorem since_setRuntime_of_ne (s : System) {node other : Node} (ne : other ≠ node)
    (runtime : Runtime) (since : Since) :
    (s.setRuntime node runtime since).since other = s.since other := by
  simp [System.setRuntime, ne]

theorem setRuntime_restored (step : NodeStep s node runtime since) (other : Node) :
    ((s.setRuntime node runtime since).since other).restored = (s.since other).restored := by
  by_cases same : other = node
  · subst same
    rw [since_setRuntime_self, step.restored]
  · rw [since_setRuntime_of_ne s same]

theorem Visiting.nodeStep {current : List String} (visiting : Visiting s loop current)
    (step : NodeStep s node runtime since) :
    Visiting (s.setRuntime node runtime since) loop current :=
  visiting.congr (fun _ _ => rfl) (fun _ _ _ _ => rfl) rfl fun other _ _ _ =>
    setRuntime_restored step other

theorem Claiming.nodeStep (claiming : Claiming s loop claim status) (step : NodeStep s node runtime since) :
    Claiming (s.setRuntime node runtime since) loop claim status :=
  { claiming with visiting := claiming.visiting.nodeStep step }

theorem Unchanged.nodeStep (unchanged : Unchanged s claim) (step : NodeStep s node runtime since) :
    Unchanged (s.setRuntime node runtime since) claim := by
  have fresh := (setRuntime_restored step claim.tag.node).trans unchanged.fresh
  have le := unchanged.le
  have seq := step.seq
  by_cases same : claim.tag.node = node
  · subst same
    have now := runtime_setRuntime_self s claim.tag.node runtime since
    refine ⟨?_, fun later => ?_, fresh⟩
    · rw [now]
      omega
    · rw [now] at later
      omega
  · have now := runtime_setRuntime_of_ne s same runtime since
    refine ⟨?_, ?_, fresh⟩
    · rw [now]
      exact le
    · rw [now]
      exact unchanged.same

theorem Revertible.nodeStep (revertible : Revertible s claim) (step : NodeStep s node runtime since) :
    Revertible (s.setRuntime node runtime since) claim := by
  have restored := (setRuntime_restored step claim.tag.node).trans revertible.restored
  have le := revertible.le
  have seq := step.seq
  by_cases same : claim.tag.node = node
  · subst same
    have now := runtime_setRuntime_self s claim.tag.node runtime since
    refine ⟨?_, fun later => ?_, restored⟩
    · rw [now]
      exact Nat.le_trans le (by omega)
    · rw [now] at later
      change runtime.nodeEventSeq = (restoredRuntime s.owner claim).nodeEventSeq at later
      omega
  · have now := runtime_setRuntime_of_ne s same runtime since
    have nowSince := since_setRuntime_of_ne s same runtime since
    refine ⟨?_, ?_, restored⟩
    · rw [now]
      exact le
    · rw [now, nowSince]
      exact revertible.same

end

/-! ### The invariant -/

/-- What holds in a phase. -/
def PhaseHolds (nodes : List Node) (s : System) : Phase → Prop
  | .idle => True
  | .preparing restartId remaining prepared _ =>
    Batch s restartId s.files prepared ∧ Covers nodes s.snapshots restartId remaining prepared
  | .writing before todo finished stateWritten =>
    ∃ restartId, Writing nodes s restartId before todo finished stateWritten
  | .undoing before items tagUndone => ∃ restartId, Undoing s restartId before items tagUndone
  | .cleaning before all todo => todo ⊆ all ∧ ∃ restartId, Written nodes s restartId before all
  | .captured before result => Captured nodes s before result
  | .visiting loop => Visiting s loop []
  | .dropping loop name tag _ =>
    Visiting s loop [name] ∧ loop.before.tags.lookup name = some tag ∧
      s.files.tags.lookup name = some tag ∧ tag.status = .completed
  | .claiming loop claim =>
    Claiming s loop claim claim.tag.status ∧ claim.tag.status ≠ .completed ∧
      claim.tag.status ≠ .claimed s.owner ∧ Unchanged s claim
  | .restoring loop claim => Claiming s loop claim (.claimed s.owner) ∧ Free s claim ∧ Unchanged s claim
  | .waking loop claim => Claiming s loop claim (.claimed s.owner) ∧ Revertible s claim
  | .reverting loop claim restored =>
    Claiming s loop claim (.claimed s.owner) ∧
      if restored then Revertible s claim else Unchanged s claim
  | .retrying loop claim => Claiming s loop claim (.claimed s.owner) ∧ Free s claim
  | .recovered loop => Visiting s loop [] ∧ loop.names = []
  | .marking name tag => s.files.tags.lookup name = some tag
  | .removingState name tag | .removingTag name tag =>
    s.files.tags.lookup name = some { tag with status := .completed }

/-- The invariant of all steps. -/
structure Sound (nodes : List Node) (s : System) : Prop where
  kept : Kept s.owner s.nextRestartId s.events s.files
  proper : Proper s.events
  accounts : ∀ node, Accounts (s.since node) (s.runtime node).pending
  phase : PhaseHolds nodes s s.phase

section
variable {nodes : List Node} {isClock : Node → Bool} {s s' : System} {loop : Loop} {claim : Claim}

theorem sound_start : Sound nodes {} :=
  ⟨kept_start, List.Pairwise.nil, fun _ => accounts_start [], trivial⟩

theorem Sound.go (sound : Sound nodes s) {files : Files} {phase : Phase}
    (kept : Kept s.owner s.nextRestartId s.events files)
    (holds : PhaseHolds nodes (s.go files phase) phase) : Sound nodes (s.go files phase) :=
  ⟨kept, sound.proper, sound.accounts, holds⟩

theorem PhaseHolds.nodeStep {phase : Phase} {node : Node} {runtime : Runtime} {since : Since}
    (holds : PhaseHolds nodes s phase) (step : NodeStep s node runtime since) :
    PhaseHolds nodes (s.setRuntime node runtime since) phase := by
  cases phase with
  | idle => trivial
  | preparing restartId remaining prepared unsafe_ =>
    obtain ⟨batch, covers⟩ := holds
    exact ⟨{ batch with }, covers⟩
  | writing before todo finished stateWritten =>
    obtain ⟨restartId, writing⟩ := holds
    exact ⟨restartId, { writing with batch := { writing.batch with } }⟩
  | undoing before items tagUndone =>
    obtain ⟨restartId, undoing⟩ := holds
    exact ⟨restartId, { undoing with batch := { undoing.batch with } }⟩
  | cleaning before all todo =>
    obtain ⟨sub, restartId, written⟩ := holds
    exact ⟨sub, restartId, { written with batch := { written.batch with } }⟩
  | captured before result => cases result <;> exact holds
  | visiting loop => exact Visiting.nodeStep holds step
  | dropping loop name tag stateRemoved => exact ⟨holds.1.nodeStep step, holds.2⟩
  | claiming loop claim =>
    obtain ⟨claiming, open_, unclaimed, unchanged⟩ := holds
    exact ⟨claiming.nodeStep step, open_, unclaimed, unchanged.nodeStep step⟩
  | restoring loop claim =>
    obtain ⟨claiming, free, unchanged⟩ := holds
    exact ⟨claiming.nodeStep step, free, unchanged.nodeStep step⟩
  | waking loop claim =>
    obtain ⟨claiming, revertible⟩ := holds
    exact ⟨claiming.nodeStep step, revertible.nodeStep step⟩
  | reverting loop claim restored =>
    obtain ⟨claiming, either⟩ := holds
    refine ⟨claiming.nodeStep step, ?_⟩
    cases restored with
    | true => exact Revertible.nodeStep either step
    | false => exact Unchanged.nodeStep either step
  | retrying loop claim => exact ⟨holds.1.nodeStep step, holds.2⟩
  | recovered loop => exact ⟨holds.1.nodeStep step, holds.2⟩
  | marking name tag => exact holds
  | removingState name tag => exact holds
  | removingTag name tag => exact holds

theorem Sound.nodeStep (sound : Sound nodes s) {node : Node} {runtime : Runtime} {since : Since}
    (step : NodeStep s node runtime since) : Sound nodes (s.setRuntime node runtime since) := by
  refine ⟨sound.kept, sound.proper, fun other => ?_, sound.phase.nodeStep step⟩
  by_cases same : other = node
  · subst same
    rw [since_setRuntime_self, runtime_setRuntime_self]
    exact step.accounts (sound.accounts other)
  · rw [since_setRuntime_of_ne s same, runtime_setRuntime_of_ne s same]
    exact sound.accounts other

end

end AgentPark.Restart
