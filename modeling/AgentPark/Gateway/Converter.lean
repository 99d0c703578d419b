import AgentPark.Gateway.Client

/-!
# An answer through a converter

The converters to the protocols of the clients read the events of an answer one after the other.
`Converter` says what each event does to one of them; `Opens.streamed` and `Opens.refuses` follow
a whole answer from the emitter to the frames.
-/

namespace AgentPark.Gateway

open Lib Generator Emitter

/-- A converter and what it does with the calls of a kind.  It is `ready` behind the first event, and
`texted` behind a piece of text. -/
structure Converter (host : Host) (τ : Type) where
  handle : Json → Code τ Flow
  kind : CanonicalToolCall → Prop
  ready : τ → Prop
  texted : τ → Prop
  addText : τ → τ
  showText : τ → String → List Frame
  addCall : τ → τ
  showCall : Nat → τ → CanonicalToolCall → List Frame
  count : CanonicalResult → τ → τ
  plain : ∀ call, kind call → PlainCall call
  ready_addText : ∀ t, ready t → ready (addText t)
  texted_addText : ∀ t, ready t → texted (addText t)
  ready_addCall : ∀ t, ready t → ready (addCall t)
  passes : ∀ t, ready t → Passes handle t
  text : ∀ t, ready t → ∀ delta, delta ≠ "" → ∀ message n,
    Emits (handle (payload n (textEvent message delta))) t (showText t delta) .next (addText t)
  message : ∀ t, ready t → texted t → ∀ index itemId text n,
    Emits (handle (payload n (doneEvent index (messageItem itemId text "completed")))) t [] .next t
  call : ∀ t, ready t → ∀ drawn call, kind call → ¬ BlankId call → ∀ index n,
    Emits (handle (payload n (doneEvent index (.obj (functionItem (host.uuid4 drawn) call))))) t
      (showCall drawn t call) .next (addCall t)
  blank : ∀ t, ready t → ∀ drawn call, kind call → BlankId call → ∀ index n, ∃ out err,
    Fails (handle (payload n (doneEvent index (.obj (functionItem (host.uuid4 drawn) call))))) t out err
  completed : ∀ t, ready t → ∀ result n response, response.get "usage" = some (usage result) →
    Emits (handle (payload n ("response.completed", [("response", response)]))) t [] .next (count result t)

namespace Converter

variable {host : Host} {τ : Type} (c : Converter host τ)

/-- The frames of a text in pieces. -/
def textFrames : τ → List String → List Frame
  | _, [] => []
  | t, delta :: deltas => c.showText t delta ++ textFrames (c.addText t) deltas

/-- The frames of the calls. -/
def callFrames : Nat → τ → List CanonicalToolCall → List Frame
  | _, _, [] => []
  | drawn, t, call :: calls => c.showCall drawn t call ++ callFrames (drawn + 1) (c.addCall t) calls

def addTexts (t : τ) (deltas : List String) : τ := deltas.foldl (fun t _ => c.addText t) t

def addCalls (t : τ) (calls : List CanonicalToolCall) : τ := calls.foldl (fun t _ => c.addCall t) t

variable {c} {t t₀ : τ} {e : Emitter} {calls : List CanonicalToolCall} {out : List Frame}
variable {result : CanonicalResult}

theorem ready_addTexts (ready : c.ready t) (deltas : List String) : c.ready (c.addTexts t deltas) := by
  induction deltas generalizing t with
  | nil => exact ready
  | cons delta deltas ih => exact ih (c.ready_addText t ready)

theorem ready_addCalls (ready : c.ready t) (calls : List CanonicalToolCall) : c.ready (c.addCalls t calls) := by
  induction calls generalizing t with
  | nil => exact ready
  | cons call calls ih => exact ih (c.ready_addCall t ready)

theorem relay_texts (ready : c.ready t) (deltas : List String) (silent : e.reasoning = none) (clean : e.Clean)
    (opened : e.message ≠ none → c.texted t) :
    ∃ e', Relay c.handle (deltas.forM (Emitter.text host)) e t (c.textFrames t (shownDeltas deltas)) e'
        (c.addTexts t (shownDeltas deltas)) ∧
      e'.reasoning = none ∧ e'.Clean ∧ (e'.message ≠ none → c.texted (c.addTexts t (shownDeltas deltas))) := by
  induction deltas generalizing e t with
  | nil => exact ⟨e, relay_pure, silent, clean, opened⟩
  | cons delta deltas ih =>
    unfold shownDeltas at ih ⊢
    by_cases empty : delta = ""
    · obtain ⟨e', later, rest⟩ := ih ready silent clean opened
      have here : Relay c.handle (Emitter.text host delta) e t [] e t := by
        unfold Emitter.text
        rw [if_pos empty]
        exact relay_pure
      rw [List.filter_cons_of_neg (by simp [empty])]
      exact ⟨e', here.bind later, rest⟩
    · have here := relay_text host silent empty (c.passes t ready) fun message n => c.text t ready delta empty message n
      obtain ⟨silentText, cleanText⟩ := addText_plain host silent clean delta
      obtain ⟨e', later, rest⟩ :=
        ih (c.ready_addText t ready) silentText cleanText fun _ => c.texted_addText t ready
      rw [List.filter_cons_of_pos (by simpa using empty)]
      exact ⟨e', here.bind later, rest⟩

theorem relay_calls (ready : c.ready t) (kinds : ∀ call ∈ calls, c.kind call)
    (present : ∀ call ∈ calls, ¬ BlankId call) (clean : e.Clean) :
    ∃ e', Relay c.handle (calls.forM (emitCall host)) e t (c.callFrames e.drawn t calls) e' (c.addCalls t calls) ∧
      e'.Clean := by
  induction calls generalizing e t with
  | nil => exact ⟨e, relay_pure, clean⟩
  | cons call calls ih =>
    obtain ⟨kindFirst, kindRest⟩ := List.forall_mem_cons.mp kinds
    obtain ⟨presentFirst, presentRest⟩ := List.forall_mem_cons.mp present
    have unique := uniqueKeys_functionItem (host.uuid4 e.drawn) call
    have here := relay_emitCall host (toolCallItem_plain (c.plain call kindFirst)) unique (c.passes t ready)
      fun index n => c.call t ready e.drawn call kindFirst presentFirst index n
    have cleanItem : (e.addItem call (functionItem (host.uuid4 e.drawn) call)).Clean := clean.addItem unique
    obtain ⟨e', later, cleanLater⟩ := ih (c.ready_addCall t ready) kindRest presentRest cleanItem
    exact ⟨e', here.bind later, cleanLater⟩

theorem breaks_calls (ready : c.ready t) (kinds : ∀ call ∈ calls, c.kind call)
    (blank : ∃ call ∈ calls, BlankId call) : ∃ e', Breaks c.handle (calls.forM (emitCall host)) e t e' := by
  induction calls generalizing e t with
  | nil =>
    obtain ⟨call, mem, -⟩ := blank
    cases mem
  | cons call calls ih =>
    obtain ⟨kindFirst, kindRest⟩ := List.forall_mem_cons.mp kinds
    have isItem : toolCallItem (host.uuid4 e.drawn) call = .ok (functionItem (host.uuid4 e.drawn) call) :=
      toolCallItem_plain (c.plain call kindFirst)
    have unique := uniqueKeys_functionItem (host.uuid4 e.drawn) call
    by_cases here : BlankId call
    · obtain ⟨pairs, itemized, -⟩ :=
        itemized_plain host (fun call mem => c.plain call (kindRest call mem)) (e.drawn + 1)
      have broken := breaks_emitCall host isItem unique (c.passes t ready) fun index n =>
        c.blank t ready e.drawn call kindFirst here index n
      exact ⟨_, broken.bind (sends_calls host (e := e.addItem call _) itemized)⟩
    · have rest : ∃ call ∈ calls, BlankId call := by
        obtain ⟨other, mem, isBlank⟩ := blank
        rcases List.mem_cons.mp mem with rfl | mem
        · exact absurd isBlank here
        · exact ⟨other, mem, isBlank⟩
      have taken := relay_emitCall host isItem unique (c.passes t ready) fun index n =>
        c.call t ready e.drawn call kindFirst here index n
      obtain ⟨e', later⟩ := ih (c.ready_addCall t ready) kindRest rest
      exact ⟨e', taken.bind_breaks later⟩

/-! ### A whole answer -/

/-- The converter opens a stream for the first event of an emitter. -/
structure Opens (c : Converter host τ) (e : Emitter) (t₀ : τ) (out : List Frame) (t : τ) : Prop where
  begins : ∀ n response, Json.get "id" response = some (.str e.responseId) →
    Emits (c.handle (payload n ("response.created", [("response", response)]))) t₀ out .next t
  ready : c.ready t
  silent : e.reasoning = none
  texted : e.message ≠ none → c.texted t
  fresh : e.output = []

/-- The frames of an answer before its end. -/
def answerFrames (c : Converter host τ) (drawn : Nat) (t : τ) (deltas : List String)
    (calls : List CanonicalToolCall) : List Frame :=
  c.textFrames t (shownDeltas deltas) ++ c.callFrames drawn (c.addTexts t (shownDeltas deltas)) calls

/-- The converter behind an answer. -/
def answered (c : Converter host τ) (t : τ) (deltas : List String) (result : CanonicalResult) : τ :=
  c.count result (c.addCalls (c.addTexts t (shownDeltas deltas)) result.toolCalls)

theorem Opens.relay_opening (opens : c.Opens e t₀ out t) (deltas : List String) :
    ∃ e₁ e₂,
      Relay c.handle created e t₀ out e₁ t ∧
      Relay c.handle (deltas.forM (Emitter.text host)) e₁ t (c.textFrames t (shownDeltas deltas)) e₂
        (c.addTexts t (shownDeltas deltas)) ∧
      Relay c.handle finishReasoning e₂ (c.addTexts t (shownDeltas deltas)) [] e₂
        (c.addTexts t (shownDeltas deltas)) ∧
      Relay c.handle finishMessage e₂ (c.addTexts t (shownDeltas deltas)) [] e₂.closeMessage
        (c.addTexts t (shownDeltas deltas)) ∧ e₂.closeMessage.Clean := by
  obtain ⟨e₁, created, silent₁, message₁, output₁⟩ := relay_created opens.begins
  have clean₁ : e₁.Clean := by
    intro fields mem
    rw [output₁, opens.fresh] at mem
    cases mem
  obtain ⟨e₂, texts, silent₂, clean₂, opened₂⟩ :=
    c.relay_texts opens.ready deltas (silent₁.trans opens.silent) clean₁ (message₁ ▸ opens.texted)
  have ready := c.ready_addTexts opens.ready (shownDeltas deltas)
  have message := relay_finishMessage (e := e₂) (c.passes _ ready) fun present index itemId text n =>
    c.message _ ready (opened₂ present) index itemId text n
  exact ⟨e₁, e₂, created, texts, relay_finishReasoning silent₂, message, clean₂⟩

theorem Opens.relay_answer (opens : c.Opens e t₀ out t) (deltas : List String)
    (kinds : ∀ call ∈ result.toolCalls, c.kind call) (present : ∀ call ∈ result.toolCalls, ¬ BlankId call) :
    ∃ drawn e', Relay c.handle (sendAnswer host deltas result) e t₀
      (out ++ c.answerFrames drawn t deltas result.toolCalls) e' (c.answered t deltas result) := by
  obtain ⟨e₁, e₂, created, texts, closing, message, clean⟩ := opens.relay_opening deltas
  have ready := c.ready_addTexts opens.ready (shownDeltas deltas)
  obtain ⟨e₄, calls, clean₄⟩ := c.relay_calls ready kinds present clean
  have final := relay_finalEvent result clean₄ fun n response isUsage =>
    c.completed _ (c.ready_addCalls ready result.toolCalls) result n response isUsage
  have whole := created.bind (texts.bind (closing.bind (message.bind (calls.bind final))))
  rw [List.append_nil, List.nil_append, List.nil_append] at whole
  exact ⟨e₂.closeMessage.drawn, _, whole⟩

theorem Opens.breaks_answer (opens : c.Opens e t₀ out t) (deltas : List String)
    (kinds : ∀ call ∈ result.toolCalls, c.kind call) (blank : ∃ call ∈ result.toolCalls, BlankId call) :
    ∃ e', Breaks c.handle (sendAnswer host deltas result) e t₀ e' := by
  obtain ⟨e₁, e₂, created, texts, closing, message, -⟩ := opens.relay_opening deltas
  have ready := c.ready_addTexts opens.ready (shownDeltas deltas)
  obtain ⟨e₄, calls⟩ := c.breaks_calls ready kinds blank (e := e₂.closeMessage)
  have whole := created.bind_breaks (texts.bind_breaks (closing.bind_breaks
    (message.bind_breaks (calls.bind (sends_sendCompleted e₄ result)))))
  exact ⟨_, whole⟩

/-- What comes out behind a converter that ends with `finish`. -/
def Streamed (c : Converter host τ) (finish : Code τ Unit) (e : Emitter) (t₀ : τ) (deltas : List String)
    (result : CanonicalResult) : List Frame × Option Raised :=
  let sent := Run (sendAnswer host deltas result) e
  Run (drain (readRound c.handle) finish (sent.1.map Frame.bytes, sent.2)) t₀

variable {finish : Code τ Unit}

/-- An answer without blank identifiers comes through. -/
theorem Opens.streamed (opens : c.Opens e t₀ out t) {ending : τ → List Frame}
    (finishes : ∀ t, c.ready t → Emits finish (c.count result t) (ending (c.count result t)) () (c.count result t))
    (deltas : List String) (kinds : ∀ call ∈ result.toolCalls, c.kind call)
    (present : ∀ call ∈ result.toolCalls, ¬ BlankId call) :
    ∃ drawn, c.Streamed finish e t₀ deltas result =
      (out ++ c.answerFrames drawn t deltas result.toolCalls ++ ending (c.answered t deltas result), none) := by
  obtain ⟨drawn, e', events, sends, reads⟩ := opens.relay_answer deltas kinds present
  have ready := c.ready_addCalls (c.ready_addTexts opens.ready (shownDeltas deltas)) result.toolCalls
  refine ⟨drawn, ?_⟩
  unfold Streamed
  rw [run_of_emits sends.emits]
  exact run_of_emits (emits_drain reads (finishes _ ready))

/-- A blank identifier stops the converter. -/
theorem Opens.refuses (opens : c.Opens e t₀ out t) (deltas : List String)
    (kinds : ∀ call ∈ result.toolCalls, c.kind call) (blank : ∃ call ∈ result.toolCalls, BlankId call) :
    (c.Streamed finish e t₀ deltas result).2 ≠ none := by
  obtain ⟨e', events, shown, err, sends, failed⟩ := opens.breaks_answer deltas kinds blank
  have run : Run (drain (readRound c.handle) finish (chunks e.sequence events, none)) t₀ = (shown, some err) :=
    run_of_fails (fails_drain failed)
  unfold Streamed
  rw [run_of_emits sends.emits]
  dsimp only
  unfold chunks at run
  rw [run]
  exact nofun

end Converter

end AgentPark.Gateway
