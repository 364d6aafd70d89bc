/-
  File:      TrueSealSync/Sdk/Wire.lean
  Subject:   THE WIRE FORMAT of the event and issue streams: the JSON src/session.rs writes, and the
             public unions of src/index.ts it is read as.

  The TypeScript side casts what `JSON.parse` answers; nothing checks it.

  * `eventValue`, `issueValue`, `connectionJson` -- the values `event_json`, `issue_json` and
    `connection_json` build, for the core's events and issues;
  * `Public` -- the unions `TrueSealEvent` and `DeliveryIssue`; `asTrueSealEvent` and
    `asDeliveryIssue` read a JSON value as one of their values, where it has its fields and no other;
  * `wire_lossless` -- what arrives is the public value with the fields of the core's, and different
    events or issues arrive as different values; the connection of an event is the one that the
    `connection` getter returns.
-/
import TrueSealSync.Lib.Json
import TrueSealSync.Sdk.TrueSeal

namespace TrueSealSync.Sdk

open TrueSealSync.Lib
open TrueSealSync.Native (Member)

/-! ## 1. The core's events and issues -/

inductive StatusReason where
  | created | joined | left | removed | destroyed | storeReset
  deriving DecidableEq

inductive AdmissionDropReason where
  | groupFull
  deriving DecidableEq

inductive UnreadableReason where
  | malformed | senderOutdated | expired | droppedWhileHeld
  deriving DecidableEq

inductive SendFailedReason where
  | tooLarge | malformed | expired
  deriving DecidableEq

structure JoinRequest where
  id : String
  name : String
  deriving DecidableEq

/-- An event of the core. -/
inductive TrueSealEvent where
  | statusChanged (status : GroupStatus) (reason : StatusReason)
  | membersChanged (members : List Member)
  | joinRequest (request : JoinRequest)
  | connectionChanged (connection : ConnectionState)
  | admissionDropped (name : String) (reason : AdmissionDropReason)
  deriving DecidableEq

/-- A delivery issue of the core. -/
inductive DeliveryIssue where
  | unreadable (reason : UnreadableReason)
  | unauthorized
  | heldForUpgrade (version : UInt32)
  | handlerGaveUp (messageId error : String)
  | sendFailed (messageId : String) (reason : SendFailedReason)
  deriving DecidableEq

/-! ## 2. The native side -/

def statusReasonCode : StatusReason → String
  | .created => "created"
  | .joined => "joined"
  | .left => "left"
  | .removed => "removed"
  | .destroyed => "destroyed"
  | .storeReset => "storeReset"

def connectionJson : ConnectionState → Json
  | .connecting => .ofMembers [("state", .string "connecting")]
  | .connected => .ofMembers [("state", .string "connected")]
  | .disconnected => .ofMembers [("state", .string "disconnected")]
  | .relayVersionUnsupported min max =>
      .ofMembers [("state", .string "relayVersionUnsupported"), ("min", .number min.toNat),
        ("max", .number max.toNat)]

/-- The object of a member in `membersChanged`. -/
def memberJson (m : Member) : Json := .ofMembers [("id", .string m.id), ("name", .string m.name)]

/-- The `value` of `event_json`. -/
def eventValue : TrueSealEvent → Json
  | .statusChanged status reason =>
      .ofMembers [("type", .string "statusChanged"), ("status", .string (groupStatusCode status)),
        ("reason", .string (statusReasonCode reason))]
  | .membersChanged members =>
      .ofMembers [("type", .string "membersChanged"), ("members", .array (members.map memberJson))]
  | .joinRequest request =>
      .ofMembers [("type", .string "joinRequest"),
        ("request", .ofMembers [("id", .string request.id), ("name", .string request.name)])]
  | .connectionChanged connection =>
      .ofMembers [("type", .string "connectionChanged"), ("connection", connectionJson connection)]
  | .admissionDropped name reason =>
      .ofMembers [("type", .string "admissionDropped"), ("name", .string name),
        ("reason", .string (match reason with
          | .groupFull => "groupFull"))]

/-- The `value` of `issue_json`. -/
def issueValue : DeliveryIssue → Json
  | .unreadable reason =>
      .ofMembers [("type", .string "unreadable"), ("reason", .string (match reason with
        | .malformed => "malformed"
        | .senderOutdated => "senderOutdated"
        | .expired => "expired"
        | .droppedWhileHeld => "droppedWhileHeld"))]
  | .unauthorized => .ofMembers [("type", .string "unauthorized")]
  | .heldForUpgrade version =>
      .ofMembers [("type", .string "heldForUpgrade"), ("version", .number version.toNat)]
  | .handlerGaveUp messageId error =>
      .ofMembers [("type", .string "handlerGaveUp"), ("messageId", .string messageId),
        ("error", .string error)]
  | .sendFailed messageId reason =>
      .ofMembers [("type", .string "sendFailed"), ("messageId", .string messageId),
        ("reason", .string (match reason with
          | .tooLarge => "tooLarge"
          | .malformed => "malformed"
          | .expired => "expired"))]

/-- `event_json`; `print` is `to_string` of a `serde_json::Value`. -/
def eventJson (print : Json → String) (event : TrueSealEvent) : String := print (eventValue event)

def issueJson (print : Json → String) (issue : DeliveryIssue) : String := print (issueValue issue)

/-! ## 3. The public unions -/

namespace Public

inductive ConnectionState where
  | connecting
  | connected
  | disconnected
  | relayVersionUnsupported (min max : Binary64)
  deriving DecidableEq

inductive TrueSealEvent where
  | statusChanged (status : GroupStatus) (reason : StatusReason)
  | membersChanged (members : List Member)
  | joinRequest (request : JoinRequest)
  | connectionChanged (connection : ConnectionState)
  | admissionDropped (name : String) (reason : AdmissionDropReason)
  deriving DecidableEq

inductive DeliveryIssue where
  | unreadable (reason : UnreadableReason)
  | unauthorized
  | heldForUpgrade (version : Binary64)
  | handlerGaveUp (messageId error : String)
  | sendFailed (messageId : String) (reason : SendFailedReason)
  deriving DecidableEq

/-- `'notJoined' | 'pendingJoin' | ..` -/
def groupStatuses : List (String × GroupStatus) :=
  [("notJoined", .notJoined), ("pendingJoin", .pendingJoin), ("member", .member),
    ("leaving", .leaving), ("destroying", .destroying)]

def statusReasons : List (String × StatusReason) :=
  [("created", .created), ("joined", .joined), ("left", .left), ("removed", .removed),
    ("destroyed", .destroyed), ("storeReset", .storeReset)]

def admissionDropReasons : List (String × AdmissionDropReason) := [("groupFull", .groupFull)]

def unreadableReasons : List (String × UnreadableReason) :=
  [("malformed", .malformed), ("senderOutdated", .senderOutdated), ("expired", .expired),
    ("droppedWhileHeld", .droppedWhileHeld)]

def sendFailedReasons : List (String × SendFailedReason) :=
  [("tooLarge", .tooLarge), ("malformed", .malformed), ("expired", .expired)]

end Public

/-! ## 4. Reading a JSON value as a public value -/

/-- A value of a union of string literals. -/
def asLiteral {α : Type} (literals : List (String × α)) : Json → Option α
  | .string s => literals.lookup s
  | _ => none

def asString : Json → Option String
  | .string s => some s
  | _ => none

/-- A number, as the binary64 value it is to JavaScript. -/
def asNumber : Json → Option Binary64
  | .number n => some (Binary64.ofU64 n)
  | _ => none

/-- `{ id: string; name: string }` -/
def asMember (v : Json) : Option Member := do
  let [id, name] ← v.exactly ["id", "name"] | none
  return ⟨← asString id, ← asString name⟩

def asMembers : Json → Option (List Member)
  | .array items => items.mapM asMember
  | _ => none

def asJoinRequest (v : Json) : Option JoinRequest := do
  let [id, name] ← v.exactly ["id", "name"] | none
  return ⟨← asString id, ← asString name⟩

def asConnectionState (v : Json) : Option Public.ConnectionState := do
  match ← asString (← v.member "state") with
  | "connecting" =>
      let [_] ← v.exactly ["state"] | none
      return .connecting
  | "connected" =>
      let [_] ← v.exactly ["state"] | none
      return .connected
  | "disconnected" =>
      let [_] ← v.exactly ["state"] | none
      return .disconnected
  | "relayVersionUnsupported" =>
      let [_, min, max] ← v.exactly ["state", "min", "max"] | none
      return .relayVersionUnsupported (← asNumber min) (← asNumber max)
  | _ => none

/-- `v` as a `TrueSealEvent`: the case its `type` names, with the fields of the case and no other. -/
def asTrueSealEvent (v : Json) : Option Public.TrueSealEvent := do
  match ← asString (← v.member "type") with
  | "statusChanged" =>
      let [_, status, reason] ← v.exactly ["type", "status", "reason"] | none
      return .statusChanged (← asLiteral Public.groupStatuses status)
        (← asLiteral Public.statusReasons reason)
  | "membersChanged" =>
      let [_, members] ← v.exactly ["type", "members"] | none
      return .membersChanged (← asMembers members)
  | "joinRequest" =>
      let [_, request] ← v.exactly ["type", "request"] | none
      return .joinRequest (← asJoinRequest request)
  | "connectionChanged" =>
      let [_, connection] ← v.exactly ["type", "connection"] | none
      return .connectionChanged (← asConnectionState connection)
  | "admissionDropped" =>
      let [_, name, reason] ← v.exactly ["type", "name", "reason"] | none
      return .admissionDropped (← asString name) (← asLiteral Public.admissionDropReasons reason)
  | _ => none

/-- `v` as a `DeliveryIssue`. -/
def asDeliveryIssue (v : Json) : Option Public.DeliveryIssue := do
  match ← asString (← v.member "type") with
  | "unreadable" =>
      let [_, reason] ← v.exactly ["type", "reason"] | none
      return .unreadable (← asLiteral Public.unreadableReasons reason)
  | "unauthorized" =>
      let [_] ← v.exactly ["type"] | none
      return .unauthorized
  | "heldForUpgrade" =>
      let [_, version] ← v.exactly ["type", "version"] | none
      return .heldForUpgrade (← asNumber version)
  | "handlerGaveUp" =>
      let [_, messageId, error] ← v.exactly ["type", "messageId", "error"] | none
      return .handlerGaveUp (← asString messageId) (← asString error)
  | "sendFailed" =>
      let [_, messageId, reason] ← v.exactly ["type", "messageId", "reason"] | none
      return .sendFailed (← asString messageId) (← asLiteral Public.sendFailedReasons reason)
  | _ => none

/-! ## 5. Each value reads as the core's -/

namespace Public

/-- The public value of a connection state: a `u32` is a number exactly. -/
def ofConnectionState : Sdk.ConnectionState → ConnectionState
  | .connecting => .connecting
  | .connected => .connected
  | .disconnected => .disconnected
  | .relayVersionUnsupported min max =>
      .relayVersionUnsupported (Binary64.ofU64 min.toNat) (Binary64.ofU64 max.toNat)

/-- The public event of the same case with the same field values. -/
def ofEvent : Sdk.TrueSealEvent → TrueSealEvent
  | .statusChanged status reason => .statusChanged status reason
  | .membersChanged members => .membersChanged members
  | .joinRequest request => .joinRequest request
  | .connectionChanged connection => .connectionChanged (ofConnectionState connection)
  | .admissionDropped name reason => .admissionDropped name reason

/-- The public issue of the same case with the same field values. -/
def ofIssue : Sdk.DeliveryIssue → DeliveryIssue
  | .unreadable reason => .unreadable reason
  | .unauthorized => .unauthorized
  | .heldForUpgrade version => .heldForUpgrade (Binary64.ofU64 version.toNat)
  | .handlerGaveUp messageId error => .handlerGaveUp messageId error
  | .sendFailed messageId reason => .sendFailed messageId reason

end Public

theorem asLiteral_groupStatus (status : GroupStatus) :
    asLiteral Public.groupStatuses (.string (groupStatusCode status)) = some status := by
  cases status <;> decide

theorem asLiteral_statusReason (reason : StatusReason) :
    asLiteral Public.statusReasons (.string (statusReasonCode reason)) = some reason := by
  cases reason <;> decide

theorem asLiteral_sendFailedReason (reason : SendFailedReason) :
    asLiteral Public.sendFailedReasons (.string (match reason with
      | .tooLarge => "tooLarge"
      | .malformed => "malformed"
      | .expired => "expired")) = some reason := by
  cases reason <;> decide

theorem exactly_id_name (id name : String) :
    (Json.ofMembers [("id", .string id), ("name", .string name)]).exactly ["id", "name"] =
      some [.string id, .string name] :=
  have h : ([("id", Json.string id), ("name", .string name)].map Prod.fst).Nodup := by simp
  Json.exactly_ofMembers h

theorem asMember_memberJson (m : Member) : asMember (memberJson m) = some m := by
  unfold asMember memberJson
  rw [exactly_id_name]
  rfl

theorem asMembers_memberJson (members : List Member) :
    asMembers (.array (members.map memberJson)) = some members := by
  show (members.map memberJson).mapM asMember = some members
  induction members with
  | nil => rfl
  | cons m members ih => simp [asMember_memberJson, ih]

theorem asJoinRequest_object (request : JoinRequest) :
    asJoinRequest (.ofMembers [("id", .string request.id), ("name", .string request.name)]) =
      some request := by
  unfold asJoinRequest
  rw [exactly_id_name]
  rfl

/-- An object whose first member is `key` reads there as the tag, and under all its keys as its
    values. -/
theorem tagged (tag key : String) (ms : List (String × Json))
    (h : (key :: ms.map Prod.fst).Nodup) :
    (Json.ofMembers ((key, .string tag) :: ms)).member key = some (.string tag) ∧
      (Json.ofMembers ((key, .string tag) :: ms)).exactly (key :: ms.map Prod.fst) =
        some (.string tag :: ms.map Prod.snd) :=
  have h' : (((key, Json.string tag) :: ms).map Prod.fst).Nodup := h
  ⟨Json.member_ofMembers h' (List.mem_cons_self ..), Json.exactly_ofMembers h'⟩

theorem asConnectionState_connectionJson (c : ConnectionState) :
    asConnectionState (connectionJson c) = some (Public.ofConnectionState c) := by
  cases c with
  | relayVersionUnsupported min max =>
      obtain ⟨htag, hread⟩ := tagged "relayVersionUnsupported" "state"
        ([("min", .number min.toNat), ("max", .number max.toNat)]) (by simp)
      simp only [List.map_cons, List.map_nil] at hread
      simp [asConnectionState, connectionJson, htag, hread, asString, asNumber,
        Public.ofConnectionState]
  | _ => decide

/-- **Each event reads as the public event of its case, with its fields.** -/
theorem asTrueSealEvent_eventValue (e : TrueSealEvent) :
    asTrueSealEvent (eventValue e) = some (Public.ofEvent e) := by
  cases e with
  | statusChanged status reason =>
      obtain ⟨htag, hread⟩ := tagged "statusChanged" "type"
        ([("status", .string (groupStatusCode status)),
          ("reason", .string (statusReasonCode reason))]) (by simp)
      simp only [List.map_cons, List.map_nil] at hread
      simp [asTrueSealEvent, eventValue, htag, hread, asString, asLiteral_groupStatus,
        asLiteral_statusReason, Public.ofEvent]
  | membersChanged members =>
      obtain ⟨htag, hread⟩ := tagged "membersChanged" "type"
        ([("members", .array (members.map memberJson))]) (by simp)
      simp only [List.map_cons, List.map_nil] at hread
      simp [asTrueSealEvent, eventValue, htag, hread, asString, asMembers_memberJson, Public.ofEvent]
  | joinRequest request =>
      obtain ⟨htag, hread⟩ := tagged "joinRequest" "type"
        ([("request",
          .ofMembers [("id", .string request.id), ("name", .string request.name)])]) (by simp)
      simp only [List.map_cons, List.map_nil] at hread
      simp [asTrueSealEvent, eventValue, htag, hread, asString, asJoinRequest_object, Public.ofEvent]
  | connectionChanged connection =>
      obtain ⟨htag, hread⟩ := tagged "connectionChanged" "type"
        ([("connection", connectionJson connection)]) (by simp)
      simp only [List.map_cons, List.map_nil] at hread
      simp [asTrueSealEvent, eventValue, htag, hread, asString, asConnectionState_connectionJson,
        Public.ofEvent]
  | admissionDropped name reason =>
      cases reason
      obtain ⟨htag, hread⟩ := tagged "admissionDropped" "type"
        ([("name", .string name), ("reason", .string "groupFull")]) (by simp)
      simp only [List.map_cons, List.map_nil] at hread
      simp [asTrueSealEvent, eventValue, htag, hread, asString, asLiteral,
        Public.admissionDropReasons, Public.ofEvent]

/-- **Each issue reads as the public issue of its case, with its fields.** -/
theorem asDeliveryIssue_issueValue (i : DeliveryIssue) :
    asDeliveryIssue (issueValue i) = some (Public.ofIssue i) := by
  cases i with
  | unreadable reason => cases reason <;> decide
  | unauthorized => decide
  | heldForUpgrade version =>
      obtain ⟨htag, hread⟩ := tagged "heldForUpgrade" "type"
        ([("version", .number version.toNat)]) (by simp)
      simp only [List.map_cons, List.map_nil] at hread
      simp [asDeliveryIssue, issueValue, htag, hread, asString, asNumber, Public.ofIssue]
  | handlerGaveUp messageId error =>
      obtain ⟨htag, hread⟩ := tagged "handlerGaveUp" "type"
        ([("messageId", .string messageId), ("error", .string error)]) (by simp)
      simp only [List.map_cons, List.map_nil] at hread
      simp [asDeliveryIssue, issueValue, htag, hread, asString, Public.ofIssue]
  | sendFailed messageId reason =>
      obtain ⟨htag, hread⟩ := tagged "sendFailed" "type"
        ([("messageId", .string messageId), ("reason", .string (match reason with
          | .tooLarge => "tooLarge"
          | .malformed => "malformed"
          | .expired => "expired"))]) (by simp)
      simp only [List.map_cons, List.map_nil] at hread
      simp [asDeliveryIssue, issueValue, htag, hread, asString, asLiteral_sendFailedReason,
        Public.ofIssue]

/-! ## 6. Nothing is lost -/

/-- Different `u32` are different numbers. -/
theorem ofU64_u32_injective {m n : UInt32}
    (h : Binary64.ofU64 m.toNat = Binary64.ofU64 n.toNat) : m = n :=
  have hm := m.toNat_lt
  have hn := n.toNat_lt
  UInt32.toNat_inj.mp (Binary64.ofU64_injective (by omega) (by omega) h)

theorem Public.ofConnectionState_injective : Function.Injective Public.ofConnectionState := by
  intro a b h
  cases a <;> cases b <;> simp only [Public.ofConnectionState, reduceCtorEq,
    Public.ConnectionState.relayVersionUnsupported.injEq] at h
  case relayVersionUnsupported.relayVersionUnsupported =>
    rw [ofU64_u32_injective h.1, ofU64_u32_injective h.2]
  all_goals rfl

theorem Public.ofEvent_injective : Function.Injective Public.ofEvent := by
  intro a b h
  cases a <;> cases b <;> simp only [Public.ofEvent, reduceCtorEq,
    Public.TrueSealEvent.statusChanged.injEq, Public.TrueSealEvent.membersChanged.injEq,
    Public.TrueSealEvent.joinRequest.injEq, Public.TrueSealEvent.connectionChanged.injEq,
    Public.TrueSealEvent.admissionDropped.injEq] at h
  case statusChanged.statusChanged => rw [h.1, h.2]
  case membersChanged.membersChanged => rw [h]
  case joinRequest.joinRequest => rw [h]
  case connectionChanged.connectionChanged => rw [Public.ofConnectionState_injective h]
  case admissionDropped.admissionDropped reason _ reason' =>
    cases reason
    cases reason'
    rw [h.1]

theorem Public.ofIssue_injective : Function.Injective Public.ofIssue := by
  intro a b h
  cases a <;> cases b <;> simp only [Public.ofIssue, reduceCtorEq,
    Public.DeliveryIssue.unreadable.injEq, Public.DeliveryIssue.heldForUpgrade.injEq,
    Public.DeliveryIssue.handlerGaveUp.injEq, Public.DeliveryIssue.sendFailed.injEq] at h
  case unreadable.unreadable => rw [h]
  case unauthorized.unauthorized => rfl
  case heldForUpgrade.heldForUpgrade => rw [ofU64_u32_injective h]
  case handlerGaveUp.handlerGaveUp => rw [h.1, h.2]
  case sendFailed.sendFailed => rw [h.1, h.2]

/-! ## 7. The connection of an event and that of the getter -/

/-- A JSON scalar in JavaScript. -/
def jsonScalar : Json → Option JsVal
  | .null => some .null
  | .bool b => some (.boolean b)
  | .number n => some (.number (Binary64.ofU64 n))
  | .string s => some (.string s)
  | .array _ | .object _ => none

/-- `v` is an object with these properties and no other. -/
def HasProperties (v : Json) (properties : List (String × JsVal)) : Prop :=
  ∃ ms, v.members = some ms ∧
    (ms.map fun m => (m.1, jsonScalar m.2)).Perm (properties.map fun p => (p.1, some p.2))

/-- The properties of the object the getter returns. -/
def TrueSeal.Connection.properties (c : TrueSeal.Connection) : List (String × JsVal) :=
  ("state", .string c.state) :: match c.range with
    | some (min, max) => [("min", min), ("max", max)]
    | none => []

/-- An object made of scalars has these as its properties. -/
theorem hasProperties_ofMembers {ms : List (String × Json)} {properties : List (String × JsVal)}
    (h : (ms.map Prod.fst).Nodup)
    (hp : (ms.map fun m => (m.1, jsonScalar m.2)) = properties.map fun p => (p.1, some p.2)) :
    HasProperties (.ofMembers ms) properties := by
  obtain ⟨o, ho, hperm⟩ := Json.members_ofMembers h
  exact ⟨o, by rw [ho]; rfl, hp ▸ hperm.map _⟩

section Connection

variable {ι κ υ : Type} {program : Program ι κ υ} {w : Process ι κ υ}

/-- **The getter returns what `connection_json` writes.** -/
theorem connection_exec {c : ConnectionState}
    (hcore : program.core w.rest.history .connection = .ok c) :
    ∃ answer, (TrueSeal.connection program).exec w =
        (.ok answer, reached w (.called .connection)) ∧
      HasProperties (connectionJson c) answer.properties := by
  have hask : (ask program .connection).exec w = (.ok c, reached w (.called .connection)) := by
    rw [ask_exec, hcore]
  unfold TrueSeal.connection forward CoreSession.connection
  cases c with
  | relayVersionUnsupported min max =>
      refine ⟨⟨"relayVersionUnsupported", some (createUint32 min, createUint32 max)⟩, ?_,
        hasProperties_ofMembers (by simp) rfl⟩
      rw [Throwing.exec_tryCatch, Throwing.exec_bind, Throwing.exec_bind, hask]
      rfl
  | connecting =>
      refine ⟨⟨"connecting", none⟩, ?_, hasProperties_ofMembers (by simp) rfl⟩
      rw [Throwing.exec_tryCatch, Throwing.exec_bind, Throwing.exec_bind, hask]
      rfl
  | connected =>
      refine ⟨⟨"connected", none⟩, ?_, hasProperties_ofMembers (by simp) rfl⟩
      rw [Throwing.exec_tryCatch, Throwing.exec_bind, Throwing.exec_bind, hask]
      rfl
  | disconnected =>
      refine ⟨⟨"disconnected", none⟩, ?_, hasProperties_ofMembers (by simp) rfl⟩
      rw [Throwing.exec_tryCatch, Throwing.exec_bind, Throwing.exec_bind, hask]
      rfl

/-! ## 8. The result -/

/-- `JSON.parse` of the text printed for `v` answers `v`. -/
def Carried (print : Json → String) (parse : String → Option Json) (v : Json) : Prop :=
  parse (print v) = some v

/-- **The wire format is lossless**, where printing and parsing carry the values it builds: each
    event and each issue arrives as the public value of its case with its fields and no other,
    different ones arrive as different values, and the connection of a `connectionChanged` event is
    the object the `connection` getter returns for that state. -/
theorem wire_lossless {print : Json → String} {parse : String → Option Json}
    {e e' : TrueSealEvent} {i i' : DeliveryIssue} {c : ConnectionState}
    (he : Carried print parse (eventValue e)) (he' : Carried print parse (eventValue e'))
    (hi : Carried print parse (issueValue i)) (hi' : Carried print parse (issueValue i'))
    (hc : Carried print parse (eventValue (.connectionChanged c)))
    (hcore : program.core w.rest.history .connection = .ok c) :
    (∃ v, parse (eventJson print e) = some v ∧ asTrueSealEvent v = some (Public.ofEvent e)) ∧
    (∃ v, parse (issueJson print i) = some v ∧ asDeliveryIssue v = some (Public.ofIssue i)) ∧
    (parse (eventJson print e) = parse (eventJson print e') → e = e') ∧
    (parse (issueJson print i) = parse (issueJson print i') → i = i') ∧
    ∃ v connection answer w', parse (eventJson print (.connectionChanged c)) = some v ∧
      v.member "connection" = some connection ∧
      (TrueSeal.connection program).exec w = (.ok answer, w') ∧
      HasProperties connection answer.properties := by
  refine ⟨⟨_, he, asTrueSealEvent_eventValue e⟩, ⟨_, hi, asDeliveryIssue_issueValue i⟩, ?_, ?_, ?_⟩
  · intro h
    have hv : eventValue e = eventValue e' := Option.some.inj (he.symm.trans (h.trans he'))
    have hp := congrArg asTrueSealEvent hv
    rw [asTrueSealEvent_eventValue, asTrueSealEvent_eventValue] at hp
    exact Public.ofEvent_injective (Option.some.inj hp)
  · intro h
    have hv : issueValue i = issueValue i' := Option.some.inj (hi.symm.trans (h.trans hi'))
    have hp := congrArg asDeliveryIssue hv
    rw [asDeliveryIssue_issueValue, asDeliveryIssue_issueValue] at hp
    exact Public.ofIssue_injective (Option.some.inj hp)
  · obtain ⟨answer, hexec, hprops⟩ := connection_exec hcore
    exact ⟨_, connectionJson c, answer, _, hc,
      Json.member_ofMembers (m := ("connection", connectionJson c)) (by simp) (by simp), hexec,
      hprops⟩

end Connection

/-- An event, an issue and a connection change, with their texts. -/
def sampleWire : List (String × Json × String) :=
  [("membersChanged", eventValue (.membersChanged [⟨"a1", "Alice"⟩]),
      "\x7b\"members\":[\x7b\"id\":\"a1\",\"name\":\"Alice\"\x7d],\"type\":\"membersChanged\"\x7d"),
    ("heldForUpgrade", issueValue (.heldForUpgrade 2),
      "\x7b\"type\":\"heldForUpgrade\",\"version\":2\x7d"),
    ("connectionChanged", eventValue (.connectionChanged .connecting),
      "\x7b\"connection\":\x7b\"state\":\"connecting\"\x7d,\"type\":\"connectionChanged\"\x7d")]

def samplePrint (v : Json) : String :=
  match v.member "type" with
  | some (.string tag) => ((sampleWire.lookup tag).map Prod.snd).getD ""
  | _ => ""

def sampleParse (text : String) : Option Json :=
  (sampleWire.find? fun entry => entry.2.2 = text).map (·.2.1)

theorem wire_lossless_sample :
    (∃ v, sampleParse (eventJson samplePrint (.membersChanged [⟨"a1", "Alice"⟩])) = some v ∧
      asTrueSealEvent v = some (.membersChanged [⟨"a1", "Alice"⟩])) ∧
    ∃ v, sampleParse (issueJson samplePrint (.heldForUpgrade 2)) = some v ∧
      asDeliveryIssue v = some (.heldForUpgrade (Binary64.ofU64 2)) := by
  have hevent : Carried samplePrint sampleParse
      (eventValue (.membersChanged [⟨"a1", "Alice"⟩])) := rfl
  have hissue : Carried samplePrint sampleParse (issueValue (.heldForUpgrade 2)) := rfl
  have hconnection : Carried samplePrint sampleParse
      (eventValue (.connectionChanged .connecting)) := rfl
  have hcore : sampleProgram.core opened.rest.history .connection = .ok .connecting := rfl
  have h := wire_lossless hevent hevent hissue hissue hconnection hcore
  exact ⟨h.1, h.2.1⟩

end TrueSealSync.Sdk
