import AgentPark.Gateway.Emitter

/-!
# An emitter and the converter that reads it

`Relay handle m e t out e' t'` says that the emitter, doing `m`, goes from `e` to `e'`, and that a
converter in the state `t` that reads what it sends yields `out` and is in the state `t'`.
-/

namespace AgentPark.Gateway

open Lib Generator Emitter

/-- The chunks of the events. -/
def chunks (sequence : Nat) (events : List Event) : List (List UInt8) :=
  (frames sequence events).map Frame.bytes

section

variable {τ : Type} {handle : Json → Code τ Flow} {m next : Code Emitter Unit}
  {e e' e'' : Emitter} {t t' t'' : τ} {out more : List Frame} {ev : Event} {events : List Event}

/-- The converter reads the events, yields `out` and goes on in the state `t'`. -/
def Reads (handle : Json → Code τ Flow) (sequence : Nat) (events : List Event) (t : τ)
    (out : List Frame) (t' : τ) : Prop :=
  Emits (loop (readRound handle) (chunks sequence events)) t out .next t'

/-- The emitter does `m` and the converter reads what it sends. -/
def Relay (handle : Json → Code τ Flow) (m : Code Emitter Unit) (e : Emitter) (t : τ)
    (out : List Frame) (e' : Emitter) (t' : τ) : Prop :=
  ∃ events, Sends m e events e' ∧ Reads handle e.sequence events t out t'

theorem reads_nil {sequence : Nat} : Reads handle sequence [] t [] t := loop_nil

theorem reads_cons {sequence : Nat} (sendable : Sendable ev)
    (here : Emits (handle (payload sequence ev)) t out .next t')
    (later : Reads handle (sequence + 1) events t' more t'') :
    Reads handle sequence (ev :: events) t (out ++ more) t'' :=
  loop_cons (emits_readRound (responsesEvent_frame sendable sequence) here) later

theorem reads_append {sequence : Nat} {front back : List Event}
    (first : Reads handle sequence front t out t')
    (second : Reads handle (sequence + front.length) back t' more t'') :
    Reads handle sequence (front ++ back) t (out ++ more) t'' := by
  unfold Reads chunks at *
  rw [frames_append, List.map_append]
  exact loop_append first second

theorem reads_pass {sequence : Nat} (sendable : ∀ ev ∈ events, Sendable ev)
    (passes : ∀ ev ∈ events, ∀ n, Emits (handle (payload n ev)) t [] .next t) :
    Reads handle sequence events t [] t := by
  induction events generalizing sequence with
  | nil => exact reads_nil
  | cons ev events ih =>
    obtain ⟨sendFirst, sendRest⟩ := List.forall_mem_cons.mp sendable
    obtain ⟨passFirst, passRest⟩ := List.forall_mem_cons.mp passes
    exact reads_cons sendFirst (passFirst sequence) (ih sendRest passRest)

theorem relay_pure : Relay handle (pure ()) e t [] e t := ⟨[], sends_pure, reads_nil⟩

/-- Two pieces, one after the other. -/
theorem Relay.bind (first : Relay handle m e t out e' t')
    (second : Relay handle next e' t' more e'' t'') :
    Relay handle (m >>= fun _ => next) e t (out ++ more) e'' t'' := by
  obtain ⟨front, sendsFront, readsFront⟩ := first
  obtain ⟨back, sendsBack, readsBack⟩ := second
  rw [sendsFront.sequence] at readsBack
  exact ⟨front ++ back, sendsFront.bind sendsBack, reads_append readsFront readsBack⟩

theorem relay_event {kind : String} {fields : List (String × Json)}
    (sendable : Sendable (kind, fields))
    (handled : Emits (handle (payload e.sequence (kind, fields))) t out .next t') :
    Relay handle (event kind fields) e t out { e with sequence := e.sequence + 1 } t' := by
  refine ⟨_, sends_event e kind fields, ?_⟩
  have both := reads_cons sendable handled reads_nil
  rwa [List.append_nil] at both

/-- The emitter does `m` and the converter raises while it reads what `m` sends. -/
def Breaks (handle : Json → Code τ Flow) (m : Code Emitter Unit) (e : Emitter) (t : τ)
    (e' : Emitter) : Prop :=
  ∃ events out err, Sends m e events e' ∧
    Fails (loop (readRound handle) (chunks e.sequence events)) t out err

theorem Relay.bind_breaks (first : Relay handle m e t out e' t')
    (second : Breaks handle next e' t' e'') : Breaks handle (m >>= fun _ => next) e t e'' := by
  obtain ⟨front, sendsFront, readsFront⟩ := first
  obtain ⟨back, shown, err, sendsBack, failed⟩ := second
  rw [sendsFront.sequence] at failed
  refine ⟨front ++ back, out ++ shown, err, sendsFront.bind sendsBack, ?_⟩
  unfold chunks at *
  rw [frames_append, List.map_append]
  exact loop_append_then_fails readsFront failed

theorem Breaks.bind (first : Breaks handle m e t e') (second : Sends next e' events e'') :
    Breaks handle (m >>= fun _ => next) e t e'' := by
  obtain ⟨front, shown, err, sendsFront, failed⟩ := first
  refine ⟨front ++ events, shown, err, sendsFront.bind second, ?_⟩
  unfold chunks at *
  rw [frames_append, List.map_append]
  exact loop_append_fails failed

/-! ### The operations of the emitter -/

variable (host : Host)

/-- A converter that passes over the events it does not look at. -/
def Passes (handle : Json → Code τ Flow) (t : τ) : Prop :=
  ∀ ev, Quiet ev → ∀ n, Emits (handle (payload n ev)) t [] .next t

theorem Passes.reads (passes : Passes handle t) {sequence : Nat} (quiet : ∀ ev ∈ events, Quiet ev) :
    Reads handle sequence events t [] t :=
  reads_pass (fun ev mem => (quiet ev mem).sendable) fun ev mem => passes ev (quiet ev mem)

theorem Passes.reads_last (passes : Passes handle t) {sequence : Nat}
    (quiet : ∀ ev ∈ events, Quiet ev) (sendable : Sendable ev)
    (handled : ∀ n, Emits (handle (payload n ev)) t out .next t') :
    Reads handle sequence (events ++ [ev]) t out t' := by
  have last : Reads handle (sequence + events.length) [ev] t out t' := by
    have alone := reads_cons sendable (handled (sequence + events.length)) reads_nil
    rwa [List.append_nil] at alone
  have both := reads_append (passes.reads quiet) last
  rwa [List.nil_append] at both

theorem closeReasoning_of_none (silent : e.reasoning = none) : e.closeReasoning = e := by
  unfold closeReasoning reasoningDone
  rw [silent]
  cases e
  cases silent
  rfl

theorem reasoningDone_of_none (silent : e.reasoning = none) : e.reasoningDone = [] := by
  unfold reasoningDone
  rw [silent]

theorem relay_finishReasoning (silent : e.reasoning = none) :
    Relay handle finishReasoning e t [] e t := by
  have sends := sends_finishReasoning e
  rw [reasoningDone_of_none silent, closeReasoning_of_none silent] at sends
  exact ⟨[], sends, reads_nil⟩

/-- The piece of a text. -/
theorem relay_text (silent : e.reasoning = none) {delta : String} (notEmpty : delta ≠ "")
    (passes : Passes handle t)
    (handled : ∀ message n, Emits (handle (payload n (textEvent message delta))) t out .next t') :
    Relay handle (text host delta) e t out (e.addText host delta) t' := by
  have sends := sends_text host e notEmpty
  rw [reasoningDone_of_none silent, List.nil_append] at sends
  exact ⟨_, sends, passes.reads_last (quiet_messageOpening host _) (sendable_textEvent _ _)
    (handled _)⟩

/-- The piece that closes the message. -/
theorem relay_finishMessage (passes : Passes handle t)
    (handled : e.message ≠ none → ∀ index itemId text n,
      Emits (handle (payload n (doneEvent index (messageItem itemId text "completed")))) t [] .next t) :
    Relay handle finishMessage e t [] e.closeMessage t := by
  refine ⟨_, sends_finishMessage e, ?_⟩
  cases isOpen : e.message with
  | none =>
    have empty : e.messageDone = [] := by
      unfold messageDone
      rw [isOpen]
    rw [empty]
    exact reads_nil
  | some message =>
    obtain ⟨front, quiet, eq⟩ := messageDone_eq isOpen
    rw [eq]
    have present : e.message ≠ none := by
      rw [isOpen]
      exact nofun
    exact passes.reads_last quiet (sendable_doneEvent (uniqueKeys_messageItem _ _ _))
      (handled present _ _ _)

variable {call : CanonicalToolCall} {item : List (String × Json)}

/-- The piece of a call. -/
theorem relay_emitCall (isItem : toolCallItem (host.uuid4 e.drawn) call = .ok item)
    (unique : (Json.obj item).UniqueKeys) (passes : Passes handle t)
    (handled : ∀ index n, Emits (handle (payload n (doneEvent index (.obj item)))) t out .next t') :
    Relay handle (emitCall host call) e t out (e.addItem call item) t' := by
  obtain ⟨front, quiet, eq⟩ := @callEvents_eq item call e.output.length unique
  refine ⟨_, sends_emitCall host e isItem, ?_⟩
  rw [eq]
  exact passes.reads_last quiet (sendable_doneEvent unique) (handled _)

/-- A call that the converter refuses. -/
theorem breaks_emitCall (isItem : toolCallItem (host.uuid4 e.drawn) call = .ok item)
    (unique : (Json.obj item).UniqueKeys) (passes : Passes handle t)
    (failed : ∀ index n, ∃ out err,
      Fails (handle (payload n (doneEvent index (.obj item)))) t out err) :
    Breaks handle (emitCall host call) e t (e.addItem call item) := by
  obtain ⟨front, quiet, eq⟩ := @callEvents_eq item call e.output.length unique
  obtain ⟨out, err, raised⟩ := failed e.output.length (e.sequence + front.length)
  refine ⟨_, out, err, sends_emitCall host e isItem, ?_⟩
  rw [eq]
  unfold chunks
  rw [frames_append, List.map_append]
  apply loop_append_then_fails (passes.reads quiet)
  exact loop_cons_fails (fails_readRound (responsesEvent_frame (sendable_doneEvent unique) _) raised)

theorem relay_created
    (handled : ∀ n response, Json.get "id" response = some (.str e.responseId) →
      Emits (handle (payload n ("response.created", [("response", response)]))) t out .next t') :
    ∃ e', Relay handle created e t out e' t' ∧ e'.reasoning = e.reasoning ∧
      e'.message = e.message ∧ e'.output = e.output := by
  have sendable : Sendable ("response.created", [("response", .obj [("id", .str e.responseId),
      ("object", .str "response"), ("status", .str "in_progress"), ("model", .str e.model),
      ("output", .arr [])])]) := by
    refine sendable_mk (by decide +kernel) ?_
    simp [Json.uniqueKeys_obj, Json.uniqueKeys_arr]
  obtain ⟨events, sends, reads⟩ := relay_event (e := e) (t := t) sendable (handled _ _ rfl)
  exact ⟨_, ⟨events, ⟨emits_get.then sends.emits, sends.sequence⟩, reads⟩, rfl, rfl, rfl⟩

theorem relay_finalEvent (result : CanonicalResult) (clean : e.Clean)
    (handled : ∀ n response, Json.get "usage" response = some (usage result) →
      Emits (handle (payload n ("response.completed", [("response", response)]))) t out .next t') :
    Relay handle (sendCompleted result) e t out { e with sequence := e.sequence + 1 } t' := by
  refine ⟨_, sends_sendCompleted e result, ?_⟩
  have both := reads_cons (sendable_completedEvent clean result) (handled e.sequence _ rfl) reads_nil
  rwa [List.append_nil] at both

end

/-- What an adapter sends for an answer without reasoning whose text came in the pieces `deltas`. -/
def sendAnswer (host : Host) (deltas : List String) (result : CanonicalResult) :
    Code Emitter Unit := do
  created
  deltas.forM (text host)
  completed host result

end AgentPark.Gateway
