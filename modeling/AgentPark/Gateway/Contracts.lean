import AgentPark.Lib.JsonText

/-!
# Canonical requests and results

The gateway takes the requests of three client protocols to one canonical form, sends that form to
the protocol of a provider and takes the answer back.  This module has the canonical form and the
operations that every converter has a copy of.
-/

namespace AgentPark.Gateway

open Lib

/-- The class `[a-zA-Z0-9_-]`. -/
def isWireChar (c : Char) : Bool := c.isAlphanum || c == '_' || c == '-'

/-- What the code calls and does not define. -/
structure Host where
  /-- `hashlib.sha256(text.encode("utf-8")).hexdigest()`. -/
  sha256 : String → String
  /-- A digest is written with hexadecimal digits. -/
  sha256_hex : ∀ text, ∀ c ∈ (sha256 text).toList, c ∈ "0123456789abcdef".toList
  /-- The hexadecimal text of the identifiers `uuid.uuid4()` draws, in order. -/
  uuid4 : Nat → String
  /-- `repr(value)`, which is also the text of a list or a dictionary. -/
  repr : Json → String

/-- A host whose digests and identifiers are all zeros. -/
def zeroHost : Host where
  sha256 _ := "0000000000"
  sha256_hex := by
    have digits : ("0000000000".toList.all fun c => c ∈ "0123456789abcdef".toList) = true := by
      decide +kernel
    intro text c mem
    simpa using List.all_eq_true.mp digits c mem
  uuid4 _ := "00000000000000000000000000000000"
  repr _ := "None"

theorem Host.sha256_wire (host : Host) (text : String) :
    ∀ c ∈ (host.sha256 text).toList, isWireChar c = true := by
  have digits : "0123456789abcdef".toList.all isWireChar = true := by decide +kernel
  exact fun c mem => List.all_eq_true.mp digits c (host.sha256_hex text c mem)

/-- The exceptions of the converters. -/
inductive Raised where
  /-- `CodexProtocolError` -/
  | protocol (message : String)
  /-- A `ValueError` of another kind. -/
  | value (message : String)
  /-- An exception of another kind: a transport error, a missing key. -/
  | other (message : String)
deriving DecidableEq

/-- `ToolKind` -/
inductive ToolKind where
  | function
  | custom
  | toolSearch
deriving DecidableEq

/-- `CanonicalTool` -/
structure CanonicalTool where
  name : String
  description : String
  inputSchema : Json
  kind : ToolKind := .function
  toolNamespace : String := ""
deriving DecidableEq

/-- `CanonicalToolCall` -/
structure CanonicalToolCall where
  callId : String
  name : String
  arguments : String
  kind : ToolKind := .function
  toolNamespace : String := ""
deriving DecidableEq

inductive Role where
  | system
  | user
  | assistant
  | tool
deriving DecidableEq

/-- The content of a message: a text or a list of parts. -/
inductive Content where
  | text (text : String)
  | parts (parts : List Json)
deriving DecidableEq

/-- `CanonicalMessage` -/
structure CanonicalMessage where
  role : Role
  content : Content
  toolCalls : List CanonicalToolCall := []
  toolCallId : String := ""
  toolName : String := ""
deriving DecidableEq

/-- `CanonicalRequest` -/
structure CanonicalRequest where
  model : String
  messages : List CanonicalMessage
  tools : List CanonicalTool
  stream : Bool
  toolChoice : Json := .str "auto"
  parallelToolCalls : Bool := true
  reasoningEffort : String := ""
  maxOutputTokens : Option Nat := none
deriving DecidableEq

/-- `CanonicalResult` -/
structure CanonicalResult where
  responseId : String
  text : String := ""
  toolCalls : List CanonicalToolCall := []
  inputTokens : Nat := 0
  outputTokens : Nat := 0
deriving DecidableEq

/-- `CanonicalResult.total_tokens` -/
def CanonicalResult.totalTokens (result : CanonicalResult) : Nat :=
  result.inputTokens + result.outputTokens

/-! ### Wire names -/

/-- The characters of a name, with `_` for those outside the class. -/
def normalizeName (raw : String) : String :=
  String.ofList (raw.toList.map fun c => if isWireChar c then c else '_')

/-- The name before it is made fit for a provider. -/
def rawToolName (toolNamespace name : String) : String :=
  if toolNamespace ≠ "" then toolNamespace ++ "__" ++ name else name

/-- A name a provider takes as it stands. -/
def IsWireName (raw : String) : Prop := (∀ c ∈ raw.toList, isWireChar c = true) ∧ raw.length ≤ 64

instance (raw : String) : Decidable (IsWireName raw) :=
  decidable_of_iff (raw.toList.all isWireChar = true ∧ raw.length ≤ 64)
    (and_congr_left' List.all_eq_true)

section

variable (host : Host)

/-- `_wire_tool_name` -/
def wireToolName (toolNamespace name : String) : String :=
  let raw := rawToolName toolNamespace name
  let normalized := normalizeName raw
  if normalized = raw ∧ normalized.length ≤ 64 then normalized
  else
    let digest := String.ofList ((host.sha256 raw).toList.take 12)
    String.ofList (normalized.toList.take 49) ++ "__" ++ digest

/-- `CanonicalTool.wire_name` -/
def CanonicalTool.wireName (tool : CanonicalTool) : String :=
  wireToolName host tool.toolNamespace tool.name

/-- `CanonicalToolCall.wire_name` -/
def CanonicalToolCall.wireName (call : CanonicalToolCall) : String :=
  wireToolName host call.toolNamespace call.name

theorem normalizeName_eq_iff {raw : String} :
    normalizeName raw = raw ↔ ∀ c ∈ raw.toList, isWireChar c = true := by
  have isUnderscore : isWireChar '_' = true := by rfl
  have same : normalizeName raw = raw ↔
      raw.toList.map (fun c => if isWireChar c then c else '_') = raw.toList := by
    rw [← String.toList_inj, normalizeName, String.toList_ofList]
  rw [same]
  constructor
  · intro fixed c mem
    rw [← fixed] at mem
    obtain ⟨d, -, rfl⟩ := List.mem_map.mp mem
    split
    · assumption
    · exact isUnderscore
  · intro all
    calc raw.toList.map (fun c => if isWireChar c then c else '_')
        = raw.toList.map id := List.map_congr_left fun c mem => if_pos (all c mem)
      _ = raw.toList := List.map_id _

theorem length_normalizeName (raw : String) : (normalizeName raw).length = raw.length := by
  rw [normalizeName, String.length_ofList, List.length_map, String.length_toList]

theorem wireToolName_of_isWireName {toolNamespace name : String}
    (wire : IsWireName (rawToolName toolNamespace name)) :
    wireToolName host toolNamespace name = rawToolName toolNamespace name := by
  have normal := normalizeName_eq_iff.mpr wire.1
  unfold wireToolName
  dsimp only
  rw [normal, if_pos ⟨rfl, wire.2⟩]

theorem wireToolName_ne {toolNamespace name : String}
    (notWire : ¬ IsWireName (rawToolName toolNamespace name)) :
    wireToolName host toolNamespace name ≠ rawToolName toolNamespace name := by
  unfold wireToolName
  dsimp only
  have replaced : ¬ (normalizeName (rawToolName toolNamespace name) = rawToolName toolNamespace name ∧
      (normalizeName (rawToolName toolNamespace name)).length ≤ 64) := by
    rintro ⟨normal, short⟩
    rw [length_normalizeName] at short
    exact notWire ⟨normalizeName_eq_iff.mp normal, short⟩
  rw [if_neg replaced]
  intro same
  apply notWire
  constructor
  · intro c mem
    rw [← same] at mem
    simp only [String.toList_append, String.toList_ofList, List.mem_append] at mem
    rcases mem with (mem | mem) | mem
    · have inName := List.mem_of_mem_take mem
      rw [normalizeName, String.toList_ofList] at inName
      obtain ⟨d, -, rfl⟩ := List.mem_map.mp inName
      split
      · assumption
      · rfl
    · have separator : "__".toList.all isWireChar = true := by decide
      exact List.all_eq_true.mp separator c mem
    · exact host.sha256_wire _ c (List.mem_of_mem_take mem)
  · rw [← same]
    simp only [String.length_append, String.length_ofList, List.length_take]
    have separator : "__".length = 2 := by rfl
    omega

/-- When the name towards the provider is the name the client declared. -/
theorem wireToolName_eq_iff {toolNamespace name : String} :
    wireToolName host toolNamespace name = rawToolName toolNamespace name ↔
      IsWireName (rawToolName toolNamespace name) := by
  constructor
  · intro same
    by_contra notWire
    exact wireToolName_ne host notWire same
  · exact wireToolName_of_isWireName host

/-! ### Reading values -/

/-- The value of a number without a fraction or an exponent: an optional sign and digits. -/
def intValue (n : Number) : Option Int :=
  match n.text.toList with
  | '-' :: digits => if digits.all Char.isDigit then some (-Nat.ofDigitChars 10 digits 0) else none
  | digits => if digits.all Char.isDigit then some (Nat.ofDigitChars 10 digits 0) else none

/-- The value, if `isinstance(raw, int) and not isinstance(raw, bool)`. -/
def asInt : Json → Option Int
  | .num n => intValue n
  | _ => none

/-- `int(raw) if isinstance(raw, int) and not isinstance(raw, bool) and raw >= 0 else 0` -/
def count (raw : Option Json) : Nat := ((raw.bind asInt).getD 0).toNat

@[simp] theorem asInt_nat (n : Nat) : asInt (.nat n) = some (n : Int) := by
  have digits : n.repr.toList = Nat.toDigits 10 n := Nat.toList_repr
  have all : (Nat.toDigits 10 n).all Char.isDigit = true := by
    rw [List.all_eq_true]
    exact fun c mem => Nat.isDigit_of_mem_toDigits (by omega) (by omega) mem
  have value : Nat.ofDigitChars 10 (Nat.toDigits 10 n) 0 = n := Nat.ofDigitChars_ten_toDigits
  unfold Json.nat asInt intValue
  dsimp only
  rw [digits]
  split
  · rename_i rest same
    rw [same] at all
    cases all
  · rw [if_pos all, value]

@[simp] theorem count_nat (n : Nat) : count (some (.nat n)) = n := by
  rw [count, Option.bind_some, asInt_nat, Option.getD_some, Int.toNat_natCast]

theorem nat_injective {n m : Nat} (same : Json.nat n = Json.nat m) : n = m := by
  have value := congrArg asInt same
  rw [asInt_nat, asInt_nat] at value
  exact Int.ofNat_inj.mp (Option.some.inj value)

/-- `str(value or "")`. -/
def textOf (raw : Option Json) : String := Json.strOr host.repr "" raw

/-- `repr` of a text, for an error. -/
def quoted (text : String) : String := host.repr (.str text)

/-- `_required_text` of the client protocol `api`: the text under a key without the blanks around it,
which may not be empty. -/
def requiredText (api : String) (payload : Json) (key owner : String) : Except Raised String :=
  let value := pyStrip (textOf host (payload.get key))
  if value = "" then
    .error (.protocol (api ++ " " ++ owner ++ " requires non-empty " ++ key ++ "."))
  else .ok value

/-- `_array` of the client protocol `api`. -/
def arrayOf (api : String) (raw : Option Json) (fieldName : String) : Except Raised (List Json) :=
  match raw with
  | none | some .null => .ok []
  | some (.arr items) => .ok items
  | some _ => .error (.protocol (api ++ " " ++ fieldName ++ " must be an array."))

/-- `value or '<empty>'` in the text of an error. -/
def orEmpty (value : String) : String := if value = "" then "<empty>" else value

/-- The number of tokens a request allows: positive, or none. -/
def maxTokens (api field : String) (raw : Option Json) : Except Raised (Option Nat) :=
  match raw with
  | none | some .null => .ok none
  | some value =>
    match asInt value with
    | some (.ofNat (n + 1)) => .ok (some (n + 1))
    | _ => .error (.protocol (api ++ " " ++ field ++ " must be a positive integer."))

@[simp] theorem textOf_str (text : String) : textOf host (some (.str text)) = text := by
  unfold textOf Json.strOr
  by_cases empty : text = ""
  · simp [Json.truthy, empty]
  · simp [Json.truthy, Json.pyStr, empty]

end

end AgentPark.Gateway
