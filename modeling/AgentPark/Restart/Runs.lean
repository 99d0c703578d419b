import AgentPark.Restart.Recovery

/-!
# Runs of the restart coordinator

Each step keeps the invariant `Sound`, so in every run whose steps are all spared the captures leave
what they should, and a recovery puts back what was captured.
-/

namespace AgentPark.Restart

open Lib

section
variable {nodes : List Node} {isClock : Node → Bool} {s s' : System} {loop : Loop} {claim : Claim}

theorem Sound.holds (sound : Sound nodes s) {phase : Phase} (isPhase : s.phase = phase) :
    PhaseHolds nodes s phase :=
  isPhase ▸ sound.phase

/-! ### Steps of a capture -/

variable {fails : Bool}

theorem Sound.preparing (sound : Sound nodes s) {restartId : Nat} {remaining : List Node}
    {prepared : List Prepared} {unsafe_ : Bool}
    (isPhase : s.phase = .preparing restartId remaining prepared unsafe_)
    (stepped : advanceStep nodes isClock s fails = some s') (spared : Spared s (.advance fails)) :
    Sound nodes s' := by
  obtain ⟨batch, covers⟩ := sound.holds isPhase
  rw [advanceStep, isPhase] at stepped
  dsimp only at stepped
  cases fails with
  | true =>
    cases stepped
    exact sound.go sound.kept (captured_none_refl nodes)
  | false =>
    rw [if_neg Bool.false_ne_true] at stepped
    cases remaining with
    | nil =>
      dsimp only at stepped
      split_ifs at stepped with isUnsafe
      · cases stepped
        exact sound.go sound.kept (captured_none_refl nodes)
      · cases stepped
        have names : (prepared.map Prepared.name).Nodup := by
          unfold Spared Restart.spared at spared
          rw [isPhase] at spared
          exact of_decide_eq_true spared
        exact sound.go sound.kept ⟨restartId, writing_start batch covers names⟩
    | cons node remaining =>
      have spec := prepare_spec isClock s.files restartId node (s.runtime node)
      have snapshot : (s.readSnapshot node).snapshots node = s.runtime node :=
        Function.update_self node _ s.snapshots
      dsimp only at stepped
      rw [snapshot] at stepped
      rw [show (s.readSnapshot node).files = s.files from rfl] at stepped
      have skip (isNone : (s.runtime node).state = .working → (s.runtime node).inflight = none) :
          Covers nodes (s.readSnapshot node).snapshots restartId remaining prepared :=
        covers.read (List.Subset.refl _) fun working inflight isInflight => by
          rw [isNone working] at isInflight
          cases isInflight
      cases turn : prepare isClock s.files restartId node (s.runtime node) with
      | skipped | unsafe_ =>
        rw [turn] at spec stepped
        cases stepped
        exact ⟨sound.kept, sound.proper, sound.accounts, { batch with }, skip spec⟩
      | raised =>
        rw [turn] at stepped
        cases stepped
        exact ⟨sound.kept, sound.proper, sound.accounts, captured_none_refl nodes⟩
      | prepared item =>
        rw [turn] at spec stepped
        obtain ⟨of, inflight, isInflight, checkpoint⟩ := spec
        cases stepped
        refine ⟨sound.kept, sound.proper, sound.accounts, { batch with prepared := ?_ }, ?_⟩
        · intro other mem
          rcases List.mem_append.mp mem with earlier | isLast
          · exact batch.prepared other earlier
          · rw [List.mem_singleton.mp isLast]
            exact of
        · refine covers.read (List.subset_append_left _ _) fun _ other isOther => ?_
          cases isInflight.symm.trans isOther
          exact ⟨item, by simp, checkpoint⟩

variable {before : Files}

theorem Sound.writing (sound : Sound nodes s) {todo finished : List Prepared} {stateWritten : Bool}
    (isPhase : s.phase = .writing before todo finished stateWritten)
    (stepped : advanceStep nodes isClock s fails = some s') : Sound nodes s' := by
  obtain ⟨restartId, writing⟩ := sound.holds isPhase
  rw [advanceStep, isPhase] at stepped
  cases todo with
  | nil =>
    cases stepped
    exact sound.go sound.kept ⟨List.Subset.refl _, restartId, writing.finish⟩
  | cons item todo =>
    dsimp only at stepped
    cases fails with
    | true =>
      cases stepped
      exact sound.go sound.kept ⟨restartId, writing.undo⟩
    | false =>
      rw [if_neg Bool.false_ne_true] at stepped
      cases stateWritten with
      | true =>
        cases stepped
        exact sound.go (writing.keptTag sound.kept) ⟨restartId, writing.writeTag⟩
      | false =>
        cases stepped
        exact sound.go (writing.keptState sound.kept) ⟨restartId, writing.writeState⟩

theorem Sound.undoing (sound : Sound nodes s) {items : List Prepared} {tagUndone : Bool}
    (isPhase : s.phase = .undoing before items tagUndone)
    (stepped : advanceStep nodes isClock s fails = some s') (spared : Spared s (.advance fails)) :
    Sound nodes s' := by
  obtain ⟨restartId, undoing⟩ := sound.holds isPhase
  rw [advanceStep, isPhase] at stepped
  rw [Spared, Restart.spared, isPhase] at spared
  cases items with
  | nil =>
    cases stepped
    exact sound.go sound.kept (undoing.captured nodes)
  | cons item items =>
    cases fails with
    | true => cases spared
    | false =>
      cases tagUndone with
      | true =>
        cases stepped
        exact sound.go (undoing.keptState sound.kept) ⟨restartId, undoing.undoState⟩
      | false =>
        cases stepped
        exact sound.go (undoing.keptTag sound.kept) ⟨restartId, undoing.undoTag⟩

theorem Sound.cleaning (sound : Sound nodes s) {all todo : List Prepared}
    (isPhase : s.phase = .cleaning before all todo)
    (stepped : advanceStep nodes isClock s fails = some s') (spared : Spared s (.advance fails)) :
    Sound nodes s' := by
  obtain ⟨sub, restartId, written⟩ := sound.holds isPhase
  rw [advanceStep, isPhase] at stepped
  rw [Spared, Restart.spared, isPhase] at spared
  cases todo with
  | nil =>
    cases stepped
    exact sound.go sound.kept written.captured
  | cons item todo =>
    have mem : item ∈ all := sub List.mem_cons_self
    have subTail : todo ⊆ all := fun other inTodo => sub (List.mem_cons_of_mem item inTodo)
    have skip : Sound nodes (s.go s.files (.cleaning before all todo)) :=
      sound.go sound.kept ⟨subTail, restartId, { written with batch := { written.batch with } }⟩
    cases isPrevious : item.previousTag with
    | none =>
      dsimp only at stepped
      rw [isPrevious] at stepped
      cases stepped
      exact skip
    | some previous =>
      dsimp only at stepped
      rw [isPrevious] at stepped
      dsimp only at stepped
      cases fails with
      | true => cases spared
      | false =>
        rw [if_neg Bool.false_ne_true] at stepped
        split_ifs at stepped with samePath
        · cases stepped
          exact skip
        · cases stepped
          exact sound.go (written.keptState sound.kept mem isPrevious)
            ⟨subTail, restartId, written.clean mem isPrevious⟩


/-! ### Steps of a recovery -/

variable {tag : Tag} {name : String}

theorem Visiting.startClaim {checkpoint : Checkpoint} {current : Runtime}
    (visiting : Visiting s loop [name]) (named : tagName tag.node = some name)
    (found : s.files.tags.lookup name = some tag) (before : loop.before.tags.lookup name = some tag)
    (isCheckpoint : loop.before.states.lookup tag.statePath = some checkpoint) :
    Claiming s loop { name, tag, checkpoint, current } tag.status where
  visiting := visiting
  named := named
  tag := found
  before := before
  checkpoint := isCheckpoint

theorem visit_holds {phase : Phase} (visiting : Visiting s loop [name])
    (sameTag : s.files.tags.lookup name = loop.before.tags.lookup name)
    (sameState : ∀ tag, loop.before.tags.lookup name = some tag →
      s.files.states.lookup tag.statePath = loop.before.states.lookup tag.statePath)
    (fresh : ∀ node, tagName node = some name → (s.since node).restored = none)
    (isPhase : visit nodes s name loop = phase) : PhaseHolds nodes (s.go s.files phase) phase := by
  have fail : PhaseHolds nodes (s.go s.files (.visiting loop.fail)) (.visiting loop.fail) :=
    visiting.fail.go _
  unfold visit at isPhase
  cases found : s.files.tags.lookup name with
  | none =>
    rw [found] at isPhase
    subst isPhase
    exact fail
  | some tag =>
    have before := sameTag.symm.trans found
    rw [found] at isPhase
    dsimp only at isPhase
    by_cases named : tagName tag.node ≠ some name
    · rw [if_pos named] at isPhase
      subst isPhase
      exact fail
    rw [if_neg named] at isPhase
    by_cases completed : tag.status = .completed
    · rw [if_pos completed] at isPhase
      subst isPhase
      exact ⟨visiting.go _, before, found, completed⟩
    rw [if_neg completed] at isPhase
    by_cases claimed : tag.status = .claimed s.owner
    · rw [if_pos claimed] at isPhase
      subst isPhase
      refine Visiting.go (visiting.pass fun other isOther => ?_) _
      cases before.symm.trans isOther
      exact .inr (.inl claimed)
    rw [if_neg claimed] at isPhase
    cases isCheckpoint : s.files.states.lookup tag.statePath with
    | none =>
      rw [isCheckpoint] at isPhase
      subst isPhase
      exact fail
    | some checkpoint =>
      rw [isCheckpoint] at isPhase
      dsimp only at isPhase
      split_ifs at isPhase with other inNodes busy
      · subst isPhase
        exact fail
      · subst isPhase
        exact fail
      · subst isPhase
        have named' := not_not.mp named
        have inBefore := (sameState tag before).symm.trans isCheckpoint
        refine ⟨Visiting.startClaim (visiting.go _) named' found before inBefore, completed, claimed, ?_⟩
        exact ⟨Nat.le_refl _, fun _ => rfl, fresh tag.node named'⟩
      · subst isPhase
        exact fail

theorem Sound.visiting (sound : Sound nodes s) (isPhase : s.phase = .visiting loop)
    (stepped : advanceStep nodes isClock s fails = some s') : Sound nodes s' := by
  have holds := sound.holds isPhase
  rw [advanceStep, isPhase] at stepped
  dsimp only at stepped
  have visiting : Visiting s loop [] := holds
  cases isNames : loop.names with
  | nil =>
    rw [isNames] at stepped
    cases stepped
    exact sound.go sound.kept ⟨visiting.go _, isNames⟩
  | cons name names =>
    rw [isNames] at stepped
    have mem : name ∈ loop.names := isNames ▸ List.mem_cons_self
    have popped := visiting.pop isNames
    cases stepped
    refine sound.go sound.kept ?_
    cases fails with
    | true => exact popped.fail.go _
    | false =>
      exact visit_holds popped (visiting.tags name mem) (visiting.states name mem)
        (fun node named => visiting.fresh node name mem named) rfl

theorem Sound.dropping (sound : Sound nodes s) {stateRemoved : Bool}
    (isPhase : s.phase = .dropping loop name tag stateRemoved)
    (stepped : advanceStep nodes isClock s fails = some s') : Sound nodes s' := by
  obtain ⟨visiting, before, found, completed⟩ := sound.holds isPhase
  rw [advanceStep, isPhase] at stepped
  dsimp only at stepped
  cases fails with
  | true =>
    cases stepped
    exact sound.go sound.kept (visiting.fail.go _)
  | false =>
    rw [if_neg Bool.false_ne_true] at stepped
    cases stateRemoved with
    | true =>
      cases stepped
      refine sound.go (sound.kept.eraseTag name) ?_
      have differ : Differ s.files (s.files.eraseTag name) [name] [] :=
        ⟨fun other notMem => by
          rw [lookup_eraseTag, if_neg (by simpa using notMem)], fun _ _ => rfl⟩
      refine (visiting.write differ (by simp) _).pass fun other isOther => ?_
      cases before.symm.trans isOther
      exact .inl completed
    | false =>
      cases stepped
      refine sound.go (sound.kept.eraseState_completed found completed) ⟨?_, before, found, completed⟩
      have differ : Differ s.files (s.files.eraseState tag.statePath) [name] [tag.statePath] :=
        ⟨fun _ _ => rfl, fun path notMem => by
          rw [lookup_eraseState, if_neg (by simpa using notMem)]⟩
      refine visiting.write differ (fun path mem => ?_) _
      rw [List.mem_singleton.mp mem]
      exact (visiting.named name tag before).2

theorem Claiming.setStatus {old : TagStatus} (claiming : Claiming s loop claim old)
    (status : TagStatus) (phase : Phase) :
    Claiming (s.go (s.files.setTag claim.name { claim.tag with status }) phase) loop claim status where
  visiting := claiming.visiting.write ((Differ.refl s.files [] []).setTag claim.name _) (by simp) phase
  named := claiming.named
  tag := by
    change (s.files.setTag _ _).tags.lookup _ = _
    rw [lookup_setTag, if_pos rfl]
  before := claiming.before
  checkpoint := claiming.checkpoint

theorem Claiming.kept {old status : TagStatus} (claiming : Claiming s loop claim old)
    (kept : Kept s.owner s.nextRestartId s.events s.files) (open_ : old ≠ .completed)
    (enqueued : Event.enqueued s.owner claim.tag.restartId claim.tag.node ∈ s.events →
      status = .claimed s.owner) :
    Kept s.owner s.nextRestartId s.events
      (s.files.setTag claim.name { claim.tag with status }) := by
  have tag := kept.tag _ _ claiming.tag
  refine kept.setTag ⟨tag.path, tag.named, tag.drawn, fun _ => tag.checkpoint open_, ?_, ?_⟩
  · intro mem
    exact .inl (enqueued mem)
  · intro mem
    exact absurd (tag.completed mem) open_

theorem Sound.claiming (sound : Sound nodes s) (isPhase : s.phase = .claiming loop claim)
    (stepped : advanceStep nodes isClock s fails = some s') : Sound nodes s' := by
  obtain ⟨claiming, open_, unclaimed, unchanged⟩ := sound.holds isPhase
  rw [advanceStep, isPhase] at stepped
  dsimp only at stepped
  cases fails with
  | true =>
    cases stepped
    exact sound.go sound.kept (claiming.visiting.fail.go _)
  | false =>
    cases stepped
    have free : Free s claim := by
      intro mem
      rcases (sound.kept.tag _ _ claiming.tag).enqueued mem with same | completed
      · exact unclaimed same
      · exact open_ completed
    refine sound.go (claiming.kept sound.kept open_ fun _ => rfl) ?_
    exact ⟨claiming.setStatus _ _, free, { unchanged with }⟩

theorem Sound.restoring (sound : Sound nodes s) (isPhase : s.phase = .restoring loop claim)
    (stepped : advanceStep nodes isClock s fails = some s') (spared : Spared s (.advance fails)) :
    Sound nodes s' := by
  obtain ⟨claiming, free, unchanged⟩ := sound.holds isPhase
  rw [advanceStep, isPhase] at stepped
  rw [Spared, Restart.spared, isPhase] at spared
  dsimp only at stepped spared
  cases fails with
  | true =>
    cases stepped
    exact sound.go sound.kept ⟨{ claiming with visiting := claiming.visiting.go _ }, { unchanged with }⟩
  | false =>
    cases stepped
    have same : s.runtime claim.tag.node = claim.current := unchanged.same (by simpa using spared)
    have tag := sound.kept.tag _ _ claiming.tag
    -- Only the tag of the claim belongs to the node.
    have only : ∀ name tag', s.files.tags.lookup name = some tag' → tag'.node = claim.tag.node →
        tag' = { claim.tag with status := .claimed s.owner } := by
      intro name tag' found sameNode
      have named := (sound.kept.tag name tag' found).named
      rw [sameNode, claiming.named] at named
      cases named
      exact Option.some.inj (found.symm.trans claiming.tag)
    refine ⟨sound.kept.enqueue tag.drawn fun name tag' found sameNode _ => ?_, ?_, fun node => ?_, ?_⟩
    · rw [only name tag' found sameNode]
    · refine sound.proper.enqueue free fun completed => ?_
      cases tag.completed completed
    · by_cases isNode : node = claim.tag.node
      · subst isNode
        rw [since_setRuntime_self, runtime_setRuntime_self]
        have accounts := sound.accounts claim.tag.node
        rw [same] at accounts
        exact accounts.restore unchanged.fresh _
      · rw [since_setRuntime_of_ne _ isNode, runtime_setRuntime_of_ne _ isNode]
        exact sound.accounts node
    · have accounts := sound.accounts claim.tag.node
      unfold Accounts at accounts
      rw [unchanged.fresh, same] at accounts
      refine ⟨{ claiming with visiting := claiming.visiting.atNode claiming.named rfl rfl ?_ }, ?_⟩
      · exact fun other ne => since_setRuntime_of_ne _ ne _ _
      · constructor
        · rw [runtime_setRuntime_self]
          exact Nat.le_refl _
        · intro _
          rw [since_setRuntime_self]
          exact accounts
        · rw [since_setRuntime_self]
          rfl

theorem Sound.waking (sound : Sound nodes s) (isPhase : s.phase = .waking loop claim)
    (stepped : advanceStep nodes isClock s fails = some s') : Sound nodes s' := by
  obtain ⟨claiming, revertible⟩ := sound.holds isPhase
  rw [advanceStep, isPhase] at stepped
  dsimp only at stepped
  cases fails with
  | true =>
    cases stepped
    refine sound.go sound.kept ⟨{ claiming with visiting := claiming.visiting.go _ }, ?_⟩
    exact { revertible with }
  | false =>
    cases stepped
    refine sound.go sound.kept (Visiting.go (claiming.visiting.pass fun other isOther => ?_) _)
    cases claiming.before.symm.trans isOther
    exact .inr (.inr ⟨claim.checkpoint, claiming.checkpoint, revertible.restored⟩)

theorem Sound.reverting (sound : Sound nodes s) {restored : Bool}
    (isPhase : s.phase = .reverting loop claim restored)
    (stepped : advanceStep nodes isClock s fails = some s') (spared : Spared s (.advance fails)) :
    Sound nodes s' := by
  obtain ⟨claiming, either⟩ := sound.holds isPhase
  rw [advanceStep, isPhase] at stepped
  rw [Spared, Restart.spared, isPhase] at spared
  cases stepped
  -- Without the items of the claim the node has what has arrived and is not served.
  have accounts : (s.since claim.tag.node).served ++ claim.current.pending =
      (s.since claim.tag.node).start ++ (s.since claim.tag.node).arrived := by
    cases restored with
    | true => exact either.same (by simpa using spared)
    | false =>
      have unchanged : Unchanged s claim := either
      have accounts := sound.accounts claim.tag.node
      unfold Accounts at accounts
      rw [unchanged.fresh, unchanged.same (by simpa using spared)] at accounts
      exact accounts
  have sub : (s.events.filter fun event =>
      event ≠ Event.enqueued s.owner claim.tag.restartId claim.tag.node).Sublist s.events :=
    List.filter_sublist
  refine ⟨sound.kept.sublist sub, sound.proper.sublist sub, fun node => ?_, ?_, ?_⟩
  · by_cases isNode : node = claim.tag.node
    · subst isNode
      rw [since_setRuntime_self, runtime_setRuntime_self]
      exact accounts
    · rw [since_setRuntime_of_ne _ isNode, runtime_setRuntime_of_ne _ isNode]
      exact sound.accounts node
  · refine { claiming with visiting := claiming.visiting.atNode claiming.named rfl rfl ?_ }
    exact fun other ne => since_setRuntime_of_ne _ ne _ _
  · intro mem
    have kept := (List.mem_filter.mp mem).2
    exact of_decide_eq_true kept rfl

theorem Sound.retrying (sound : Sound nodes s) (isPhase : s.phase = .retrying loop claim)
    (stepped : advanceStep nodes isClock s fails = some s') : Sound nodes s' := by
  obtain ⟨claiming, free⟩ := sound.holds isPhase
  rw [advanceStep, isPhase] at stepped
  cases stepped
  cases fails with
  | true => exact sound.go sound.kept (claiming.visiting.fail.go _)
  | false =>
    have open_ : TagStatus.claimed s.owner ≠ .completed := nofun
    refine sound.go (claiming.kept sound.kept open_ fun mem => absurd mem free) ?_
    exact ((claiming.setStatus .pending (.visiting loop.fail)).visiting).fail

/-! ### Steps of a completion -/

theorem Sound.marking (sound : Sound nodes s) (isPhase : s.phase = .marking name tag)
    (stepped : advanceStep nodes isClock s fails = some s') : Sound nodes s' := by
  have found := sound.phase
  rw [isPhase] at found
  rw [advanceStep, isPhase] at stepped
  dsimp only at stepped
  cases fails with
  | true =>
    cases stepped
    exact sound.go sound.kept trivial
  | false =>
    cases stepped
    have old := sound.kept.tag name tag found
    have lookup_eq : (s.files.setTag name { tag with status := .completed }).tags.lookup name =
        some { tag with status := .completed } := by
      rw [lookup_setTag, if_pos rfl]
    have kept : Kept s.owner s.nextRestartId s.events
        (s.files.setTag name { tag with status := .completed }) := by
      refine sound.kept.setTag ⟨old.path, old.named, old.drawn, fun open_ => absurd rfl open_, ?_, ?_⟩
      · exact fun _ => .inr rfl
      · exact fun _ => rfl
    refine ⟨kept.complete old.drawn fun other tag' found' sameNode _ => ?_, ?_, sound.accounts, ?_⟩
    · have named := (kept.tag other tag' found').named
      rw [sameNode, old.named] at named
      cases named
      cases found'.symm.trans lookup_eq
      rfl
    · exact sound.proper.complete _ _
    · exact lookup_eq

theorem Sound.removingState (sound : Sound nodes s) (isPhase : s.phase = .removingState name tag)
    (stepped : advanceStep nodes isClock s fails = some s') : Sound nodes s' := by
  have holds := sound.holds isPhase
  have found : s.files.tags.lookup name = some { tag with status := .completed } := holds
  rw [advanceStep, isPhase] at stepped
  dsimp only at stepped
  cases fails with
  | true =>
    cases stepped
    exact sound.go sound.kept trivial
  | false =>
    cases stepped
    have kept := sound.kept.eraseState_completed found rfl
    exact sound.go kept found

theorem Sound.removingTag (sound : Sound nodes s) (isPhase : s.phase = .removingTag name tag)
    (stepped : advanceStep nodes isClock s fails = some s') : Sound nodes s' := by
  rw [advanceStep, isPhase] at stepped
  dsimp only at stepped
  cases fails with
  | true =>
    cases stepped
    exact sound.go sound.kept trivial
  | false =>
    cases stepped
    exact sound.go (sound.kept.eraseTag name) trivial

/-! ### The system -/

theorem Sound.advance (sound : Sound nodes s)
    (stepped : advanceStep nodes isClock s fails = some s') (spared : Spared s (.advance fails)) :
    Sound nodes s' := by
  cases isPhase : s.phase with
  | preparing restartId remaining prepared unsafe_ => exact sound.preparing isPhase stepped spared
  | writing before todo finished stateWritten => exact sound.writing isPhase stepped
  | undoing before items tagUndone => exact sound.undoing isPhase stepped spared
  | cleaning before all todo => exact sound.cleaning isPhase stepped spared
  | visiting loop => exact sound.visiting isPhase stepped
  | dropping loop name tag stateRemoved => exact sound.dropping isPhase stepped
  | claiming loop claim => exact sound.claiming isPhase stepped
  | restoring loop claim => exact sound.restoring isPhase stepped spared
  | waking loop claim => exact sound.waking isPhase stepped
  | reverting loop claim restored => exact sound.reverting isPhase stepped spared
  | retrying loop claim => exact sound.retrying isPhase stepped
  | marking name tag => exact sound.marking isPhase stepped
  | removingState name tag => exact sound.removingState isPhase stepped
  | removingTag name tag => exact sound.removingTag isPhase stepped
  | idle | captured before result | recovered loop =>
    unfold advanceStep at stepped
    rw [isPhase] at stepped
    cases stepped

/-- Every step keeps the invariant. -/
theorem Sound.step {action : RestartAction} (sound : Sound nodes s)
    (stepped : restartStep nodes isClock s action = some s') (spared : Spared s action) :
    Sound nodes s' := by
  have goesOn (ofNode : action.OfNode) : Sound nodes s' := by
    obtain ⟨node, runtime, since, step, rfl⟩ := restartStep_node stepped ofNode
    exact sound.nodeStep step
  cases action with
  | appendPending _ _ | take _ | finish _ | setState _ _ => exact goesOn trivial
  | capture =>
    rw [restartStep] at stepped
    split_ifs at stepped
    cases stepped
    refine ⟨sound.kept.mono (Nat.le_succ _), sound.proper, sound.accounts, ⟨?_, covers_all _ _ _ _⟩⟩
    exact ⟨Nat.lt_succ_self _, sound.kept, fun _ mem => by cases mem⟩
  | recover names =>
    rw [restartStep] at stepped
    split_ifs at stepped with idle
    cases stepped
    refine ⟨sound.kept, sound.proper, fun node => accounts_start _, ?_⟩
    have perm : names.Perm (s.files.tags.map Prod.fst) := List.isPerm_iff.mp idle.2
    constructor
    · exact perm.nodup_iff.mpr sound.kept.keys
    · intro name tag found
      have kept := sound.kept.tag name tag found
      exact ⟨kept.named, by rw [kept.path]⟩
    · exact fun _ _ => rfl
    · exact fun _ _ _ _ => rfl
    · exact fun _ _ _ _ => rfl
    · intro name tag found notMem
      have isKey : name ∈ s.files.tags.map Prod.fst :=
        List.mem_map.mpr ⟨(name, tag), mem_of_lookup found, rfl⟩
      exact absurd (perm.mem_iff.mpr isKey) notMem
  | complete restartId node =>
    rw [restartStep] at stepped
    split_ifs at stepped with idle
    cases found : (tagName node).bind fun name => (s.files.tags.lookup name).map (name, ·) with
    | none =>
      rw [found] at stepped
      cases stepped
      exact sound
    | some entry =>
      obtain ⟨name, tag⟩ := entry
      rw [found] at stepped
      dsimp only at stepped
      split_ifs at stepped with isId
      · cases stepped
        obtain ⟨name', -, isEntry⟩ := Option.bind_eq_some_iff.mp found
        obtain ⟨tag', found', same⟩ := Option.map_eq_some_iff.mp isEntry
        cases same
        exact ⟨sound.kept, sound.proper, sound.accounts, found'⟩
      · cases stepped
        exact sound
  | advance fails => exact sound.advance stepped spared
  | release =>
    rw [restartStep] at stepped
    cases isPhase : s.phase <;> rw [isPhase] at stepped <;> cases stepped
    all_goals exact ⟨sound.kept, sound.proper, sound.accounts, trivial⟩
  | crash =>
    cases stepped
    exact ⟨sound.kept.crash, sound.proper, fun _ => accounts_start [], trivial⟩

end

/-- A capture that has returned has written a tag and a checkpoint for each working node, and one that
has raised has left the files alone; after a recovery without failures the items of each checkpoint
that was to be claimed are in the pending list of its node, once, in order and in front of what has
arrived and is not served; and no checkpoint is enqueued that was by this owner or is completed. -/
def LosesNothing (nodes : List Node) (s : System) : Prop :=
  (match s.phase with
    | .captured before result => Captured nodes s before result
    | .recovered loop => loop.failed = false →
        ∀ name tag, loop.before.tags.lookup name = some tag →
          tag.status ≠ .completed → tag.status ≠ .claimed s.owner →
            ∃ checkpoint, loop.before.states.lookup tag.statePath = some checkpoint ∧
              let since := s.since tag.node
              ∃ front back, since.start ++ since.arrived = front ++ back ∧
                since.served ++ (s.runtime tag.node).pending =
                  front ++ restoredItems s.owner tag checkpoint ++ back ∧
                front.length ≤ since.served.length
    | _ => True) ∧ Proper s.events

theorem Sound.losesNothing {nodes : List Node} {s : System} (sound : Sound nodes s) :
    LosesNothing nodes s := by
  refine ⟨?_, sound.proper⟩
  have holds := sound.phase
  cases isPhase : s.phase with
  | captured before result =>
    rw [isPhase] at holds
    exact holds
  | recovered loop =>
    rw [isPhase] at holds
    obtain ⟨visiting, noNames⟩ := holds
    intro succeeded name tag found open_ unclaimed
    rcases visiting.done name tag found (by simp [noNames]) with failed | completed | claimed | put
    · rw [succeeded] at failed
      cases failed
    · exact absurd completed open_
    · exact absurd claimed unclaimed
    · obtain ⟨checkpoint, isCheckpoint, restored⟩ := put
      have accounts := sound.accounts tag.node
      unfold Accounts at accounts
      rw [restored] at accounts
      exact ⟨checkpoint, isCheckpoint, accounts⟩
  | idle | preparing | writing | undoing | cleaning | visiting | dropping | claiming | restoring |
    waking | reverting | retrying | marking | removingState | removingTag => trivial

/-- Restart recovery loses and doubles nothing in a run whose steps are all spared. -/
theorem restart_loses_nothing (nodes : List Node) (isClock : Node → Bool) (actions : List RestartAction)
    (s : System) (spared : Along (restartStep nodes isClock) (fun s action _ => Spared s action) {} actions)
    (ran : run (restartStep nodes isClock) {} actions = some s) : LosesNothing nodes s := by
  have keep : ∀ s action s', Sound nodes s → restartStep nodes isClock s action = some s' →
      Spared s action → Sound nodes s' :=
    fun _ _ _ sound stepped sparedStep => sound.step stepped sparedStep
  exact (run_invariant_along keep sound_start spared ran).losesNothing

/-- A node works on an item with another one behind it. -/
def startWork (node : Node) : List RestartAction :=
  [.appendPending node ⟨1, none, none⟩, .take node, .appendPending node ⟨2, none, none⟩]

/-- One node is captured, and recovered in the next process after an item has arrived. -/
def recoveryRun : List RestartAction :=
  startWork ⟨"g", "n"⟩ ++ .capture :: List.replicate 7 (.advance false) ++
    [.release, .crash, .appendPending ⟨"g", "n"⟩ ⟨3, none, none⟩, .recover ["g_n.json"]] ++
      List.replicate 5 (.advance false)

/-- The recovered items come back in their order, before the one that arrived. -/
theorem restart_loses_nothing_recovered :
    ∃ s, run (restartStep [⟨"g", "n"⟩] fun _ => false) {} recoveryRun = some s ∧
      (s.runtime ⟨"g", "n"⟩).pending =
        [⟨1, some 1, some 0⟩, ⟨2, some 1, none⟩, ⟨3, none, none⟩] ∧
      LosesNothing [⟨"g", "n"⟩] s := by
  have ends : (run (restartStep [⟨"g", "n"⟩] fun _ => false) {} recoveryRun).any (fun s =>
      (s.runtime ⟨"g", "n"⟩).pending =
        [⟨1, some 1, some 0⟩, ⟨2, some 1, none⟩, ⟨3, none, none⟩]) = true := by decide +kernel
  obtain ⟨s, ran, pending⟩ := (Option.any_eq_true _ _).mp ends
  have spared : Along (restartStep [⟨"g", "n"⟩] fun _ => false) (fun s action _ => Spared s action) {}
      recoveryRun := by decide +kernel
  exact ⟨s, ran, of_decide_eq_true pending,
    restart_loses_nothing [⟨"g", "n"⟩] (fun _ => false) recoveryRun s spared ran⟩

/-- Two nodes whose ids come to one file name are captured. -/
def collidingRun : List RestartAction :=
  startWork ⟨"a", "b_c"⟩ ++ startWork ⟨"a_b", "c"⟩ ++ .capture :: List.replicate 11 (.advance false)

/-- Two items of a captured batch have the same name. -/
def namesCollide (s : System) : Bool :=
  match s.phase with
  | .captured _ (some all) => decide (¬ (all.map Prepared.name).Nodup)
  | _ => false

/-- The tag of one of them is written over the tag of the other. -/
theorem restart_loses_nothing_fails :
    ¬ ∀ (nodes : List Node) (isClock : Node → Bool) (actions : List RestartAction) (s : System),
      run (restartStep nodes isClock) {} actions = some s → LosesNothing nodes s := by
  intro claimed
  have ends : (run (restartStep [⟨"a", "b_c"⟩, ⟨"a_b", "c"⟩] fun _ => false) {} collidingRun).any
      namesCollide = true := by decide +kernel
  obtain ⟨s, ran, collides⟩ := (Option.any_eq_true _ _).mp ends
  unfold namesCollide at collides
  obtain ⟨holds, -⟩ := claimed _ _ collidingRun s ran
  cases isPhase : s.phase with
  | captured before result =>
    rw [isPhase] at holds collides
    cases result with
    | none => cases collides
    | some all =>
      obtain ⟨_, _, _, names, _⟩ := holds
      exact of_decide_eq_true collides names
  | idle | preparing | writing | undoing | cleaning | visiting | dropping | claiming | restoring |
    waking | reverting | retrying | recovered | marking | removingState | removingTag =>
      rw [isPhase] at collides
      cases collides

end AgentPark.Restart
