import StarsGaming.Lobby.Records
import StarsGaming.Net.MqSession
import StarsGaming.Net.Replies

/-!
# Routes from the lobby to the servers behind the broker

The lobby hands a client's message to the broker under the exchange and the key
of the first range of commands in its table that contains the command.  On the
way the exchange is lost twice: both components of the destination are written
to the same variable, and the message that is built around them is not the one
that is sent.
-/

namespace StarsGaming.Net.ErrorCode

def parameterInvalid : BitVec 32 := 2

end StarsGaming.Net.ErrorCode

namespace StarsGaming.Lobby

open Foundation Net

/-! ## Texts of the configuration -/

/-- A number out of range, for which C promises nothing, is truncated. -/
def atoi (text : List Byte) : BitVec 32 :=
  BitVec.ofInt 32 (atoll text)

def Json.text (key : List Byte) (json : Json) :
    Except JsonFault (List Byte) := do
  let value ← json.member key
  FieldType.get .stringType value

/-! ## Routes -/

inductive RouteFault where
  /-- `std::bad_function_call` -/
  | badFunctionCall
  /-- a quotient that an `int` does not have -/
  | divide
  deriving DecidableEq

abbrev ExRoute := List Byte × List Byte

def HasQuotient (dividend divisor : BitVec 32) : Prop :=
  divisor ≠ 0 ∧ ¬(dividend = BitVec.intMin 32 ∧ divisor = -1)

instance (dividend divisor : BitVec 32) :
    Decidable (HasQuotient dividend divisor) :=
  inferInstanceAs (Decidable (_ ∧ _))

def serverKey (route : List Byte) (server : Int) : List Byte :=
  route ++ ascii "-" ++ ascii (toString server)

structure NormalRout where
  exchange : List Byte
  route : List Byte
  deriving DecidableEq

structure HashRout where
  totalCount : BitVec 32
  exchange : List Byte
  route : List Byte
  deriving DecidableEq

structure RoomRout where
  roomIdBegin : BitVec 32
  roomCountPerSvr : BitVec 32
  exchange : List Byte
  route : List Byte
  deriving DecidableEq

namespace NormalRout

def exRoute (_userId : BitVec 32) (r : NormalRout) :
    Except RouteFault ExRoute :=
  .ok (r.exchange, r.route)

end NormalRout

namespace HashRout

/-- The constructor names its parameter `hash_json` and reads `room_json`. -/
def new (hashJson : Json) (exch route : List Byte) :
    Except JsonFault HashRout := do
  let totalCount ← hashJson.text (ascii "total_count")
  return ⟨atoi totalCount, exch, route⟩

def exRoute (userId : BitVec 32) (r : HashRout) :
    Except RouteFault ExRoute :=
  if HasQuotient userId r.totalCount then
    .ok (r.exchange, serverKey r.route (userId.srem r.totalCount).toInt)
  else .error .divide

end HashRout

namespace RoomRout

def new (roomJson : Json) (exch route : List Byte) :
    Except JsonFault RoomRout := do
  let roomBegin ← roomJson.text (ascii "room_begin")
  let countPerSvr ← roomJson.text (ascii "count_per_svr")
  return ⟨atoi roomBegin, atoi countPerSvr, exch, route⟩

/-- The room is always the same, whatever the message says. -/
def exRoute (_userId : BitVec 32) (r : RoomRout) :
    Except RouteFault ExRoute :=
  let roomId : BitVec 32 := 1000
  if HasQuotient roomId r.roomCountPerSvr then
    .ok (r.exchange, serverKey r.route (roomId.sdiv r.roomCountPerSvr).toInt)
  else .error .divide

end RoomRout

inductive RouteFun where
  | normal (r : NormalRout)
  | hash (r : HashRout)
  | room (r : RoomRout)
  deriving DecidableEq

def RouteFun.exRoute (userId : BitVec 32) :
    RouteFun → Except RouteFault ExRoute
  | normal r => r.exRoute userId
  | hash r => r.exRoute userId
  | room r => r.exRoute userId

/-- A range of commands; `routeFun` is empty if its type was unknown. -/
structure MsgRout where
  cmdBegin : BitVec 32
  cmdEnd : BitVec 32
  routeFun : Option RouteFun
  deriving DecidableEq

namespace MsgRout

def normalRoute : BitVec 32 := 0

def hashRoute : BitVec 32 := 1

def roomRoute : BitVec 32 := 2

def new (cmdBegin cmdEnd : BitVec 32) (exch route : List Byte)
    (routeType : BitVec 32) (specialJson : Json) :
    Except JsonFault MsgRout :=
  if routeType = normalRoute then
    .ok ⟨cmdBegin, cmdEnd, some (.normal ⟨exch, route⟩)⟩
  else if routeType = hashRoute then do
    let r ← HashRout.new specialJson exch route
    return ⟨cmdBegin, cmdEnd, some (.hash r)⟩
  else if routeType = roomRoute then do
    let r ← RoomRout.new specialJson exch route
    return ⟨cmdBegin, cmdEnd, some (.room r)⟩
  else .ok ⟨cmdBegin, cmdEnd, none⟩

def isCmdMatch (msgCmd : BitVec 32) (r : MsgRout) : Bool :=
  r.cmdBegin.sle msgCmd && msgCmd.slt r.cmdEnd

def getExRoute (userId : BitVec 32) (r : MsgRout) :
    Except RouteFault ExRoute :=
  match r.routeFun with
  | none => .error .badFunctionCall
  | some f => f.exRoute userId

end MsgRout

/-- An entry of the configuration, its member `special` by itself. -/
structure RouteConfig where
  members : Json
  special : Json

def RouteConfig.parse (config : RouteConfig) : Except JsonFault MsgRout := do
  let cmdBegin ← config.members.member (ascii "cmd_begin")
  let cmdBegin ← FieldType.get .intType cmdBegin
  let cmdEnd ← config.members.text (ascii "cmd_end")
  let exch ← config.members.text (ascii "exchange")
  let route ← config.members.text (ascii "route")
  let type ← config.members.text (ascii "type")
  MsgRout.new cmdBegin (atoi cmdEnd) exch route (atoi type) config.special

def parseRouteConfig (routeJson : List RouteConfig) :
    Except JsonFault (List MsgRout) :=
  routeJson.mapM RouteConfig.parse

/-! ## The broker -/

/--
What a message to the broker passes through.  `closing` says that the session
was told to close; no function looks at it.
-/
structure MqSender (P : Protobuf) where
  session : Option (MqSession P)
  asyncRequest : AsyncRequest MqHeader P
  closing : Bool

namespace MqSender

variable {P : Protobuf} (host : Host P) (headerFound : MqMsg P → MqHeader)

def published (mq : MqSender P) : List AmqpMessage :=
  (mq.session.map MqSession.published).getD []

/-- `Session::send` and, at once, the handler it posts. -/
def send (msg : MqMsg P) (session : MqSession P) (mq : MqSender P) :
    MqSender P :=
  if msg.header.cmdtype = SystemMsg.shutdownSession.cmd then
    { mq with closing := true }
  else
    let header := HeaderType.setType MsgType.asynRequest msg.header
    let numbered := setMsgSequenceid header mq.asyncRequest.sequenceid
    { mq with
      asyncRequest := mq.asyncRequest.doSendAsynMessage msg.header
      session := some (session.doWrite host { msg with header := numbered.1 }) }

/--
What is sent is not `sendmsg` but the body, which is no message.  What the call
takes for its header is left open; `Message.header` would be right.
-/
def sendMessage (cmdType : BitVec 32) (msg : PbMessage P)
    (exchangeName routeName : List Byte) (mq : MqSender P) :
    Bool × MqSender P :=
  match mq.session with
  | none => (false, mq)
  | some session =>
      let sendmsg : MqMsg P :=
        { header :=
            { MqHeader.empty with
              recvExchange := exchangeName
              recvRoutkey := routeName
              cmdtype := cmdType }
          pbmessage := msg }
      (true, mq.send host ⟨headerFound sendmsg, msg⟩ session)

end MqSender

/-! ## The module -/

/-- `replies` is what the clients' sessions were handed. -/
structure LobbyModule (P : Protobuf) where
  msgRoute : List MsgRout
  mq : MqSender P
  replies : List (Reply Header P)

/-- `str_exch` is assigned twice and `str_route` never. -/
def unpack (exRoute : ExRoute) : ExRoute :=
  (exRoute.2, [])

namespace LobbyModule

variable {P : Protobuf} (host : Host P) (headerFound : MqMsg P → MqHeader)

def published (s : LobbyModule P) : List AmqpMessage :=
  s.mq.published

def findRoute (cmdtype : BitVec 32) (s : LobbyModule P) : Option MsgRout :=
  s.msgRoute.find? (MsgRout.isCmdMatch cmdtype)

def sendFailedReason (msg : TcpMsg P) (failReson : BitVec 32)
    (s : LobbyModule P) : LobbyModule P :=
  { s with
    replies := s.replies ++ [msg.sendFailedReason host.msgMaker failReson] }

def dispatchAppMsg (userId : BitVec 32) (msg : TcpMsg P)
    (s : LobbyModule P) : Except RouteFault (LobbyModule P) :=
  match s.findRoute msg.header.cmdtype with
  | none => .ok (s.sendFailedReason host msg ErrorCode.parameterInvalid)
  | some rout =>
      match rout.getExRoute userId with
      | .error fault => .error fault
      | .ok exRoute =>
          match s.mq.sendMessage host headerFound msg.header.cmdtype
            msg.pbmessage (unpack exRoute).1 (unpack exRoute).2 with
          | (true, mq) => .ok { s with mq := mq }
          | (false, mq) =>
              .ok ({ s with mq := mq }.sendFailedReason host msg
                ErrorCode.systemError)

end LobbyModule

/-! ## What routing is for -/

def RouteFun.destination (userId roomId : BitVec 32) : RouteFun → ExRoute
  | normal r => (r.exchange, r.route)
  | hash r =>
      (r.exchange,
        serverKey r.route (userId.toInt.tmod r.totalCount.toInt))
  | room r =>
      (r.exchange,
        serverKey r.route (roomId.toInt.tdiv r.roomCountPerSvr.toInt))

def RouteFun.Positive : RouteFun → Prop
  | normal _ => True
  | hash r => 0 < r.totalCount.toInt
  | room r => 0 < r.roomCountPerSvr.toInt

def Carries {P : Protobuf} (amqp : AmqpMessage) (msg : TcpMsg P) : Prop :=
  ∃ header : MqHeader, header.cmdtype = msg.header.cmdtype ∧
    amqp.body = storeWord true (byteSize (P.mqHeader.serialize header)) ++
      P.mqHeader.serialize header ++ msg.pbmessage.bytes

/-- `roomId` is the room that a message names. -/
structure Dispatches {P : Protobuf} (host : Host P)
    (roomId : TcpMsg P → BitVec 32) (userId : BitVec 32) (msg : TcpMsg P)
    (before after : LobbyModule P) : Prop where
  published : ∀ rout ∈ before.findRoute msg.header.cmdtype,
    ∀ f ∈ rout.routeFun, ∃ amqp,
      after.published = before.published ++ [amqp] ∧
      (amqp.exchange, amqp.routkey) = f.destination userId (roomId msg) ∧
      Carries amqp msg
  refused :
    (after.replies = before.replies ++
        [msg.sendFailedReason host.msgMaker ErrorCode.parameterInvalid] ∧
      after.published = before.published) ↔
    ∀ rout ∈ before.msgRoute, rout.isCmdMatch msg.header.cmdtype = false

/-- What protocol buffers can write at all. -/
def Serializable {P : Protobuf} (msg : PbMessage P) : Prop :=
  msg.bytes.length < 2 ^ 31

/-! ## Nothing is published -/

namespace MqSender

variable {P : Protobuf} {host : Host P} {headerFound : MqMsg P → MqHeader}

theorem published_doWrite (s : MqSession P) {msg : MqMsg P}
    (hmsg : Serializable msg.pbmessage) :
    (s.doWrite host msg).published = s.published := by
  rw [MqSession.doWrite]
  dsimp only
  split_ifs
  · rfl
  · split
    · rfl
    · rw [MsgBuffer.encodeMessage_of_lt _ hmsg]

theorem published_send {msg : MqMsg P} (hmsg : Serializable msg.pbmessage)
    {session : MqSession P} {mq : MqSender P}
    (hsession : mq.session = some session) :
    (mq.send host msg session).published = mq.published := by
  rw [send]
  split_ifs
  · rfl
  · simp only [published, hsession, Option.map_some, Option.getD_some]
    exact published_doWrite session hmsg

theorem published_sendMessage (cmdType : BitVec 32) {msg : PbMessage P}
    (hmsg : Serializable msg) (exchangeName routeName : List Byte)
    (mq : MqSender P) :
    (mq.sendMessage host headerFound cmdType msg exchangeName
      routeName).2.published = mq.published := by
  rw [sendMessage]
  split
  · rfl
  · next session hsession =>
      exact published_send hmsg hsession

end MqSender

namespace LobbyModule

variable {P : Protobuf} {host : Host P} {headerFound : MqMsg P → MqHeader}
  {userId : BitVec 32} {msg : TcpMsg P}

theorem published_dispatchAppMsg (hmsg : Serializable msg.pbmessage)
    {s s' : LobbyModule P}
    (h : s.dispatchAppMsg host headerFound userId msg = .ok s') :
    s'.published = s.published := by
  rw [dispatchAppMsg] at h
  split at h
  · cases h
    rfl
  · split at h
    · cases h
    · next exRoute _ =>
      have hmq : (s.mq.sendMessage host headerFound msg.header.cmdtype
          msg.pbmessage (unpack exRoute).1
          (unpack exRoute).2).2.published = s.mq.published :=
        MqSender.published_sendMessage _ hmsg _ _ _
      split at h
      all_goals
        next mq hsend =>
        cases h
        rw [hsend] at hmq
        exact hmq

theorem findRoute_eq_none_iff (cmdtype : BitVec 32) (s : LobbyModule P) :
    s.findRoute cmdtype = none ↔
      ∀ rout ∈ s.msgRoute, rout.isCmdMatch cmdtype = false := by
  rw [findRoute, List.find?_eq_none]
  simp only [Bool.not_eq_true]

theorem dispatchAppMsg_of_none {s : LobbyModule P}
    (h : s.findRoute msg.header.cmdtype = none) :
    s.dispatchAppMsg host headerFound userId msg =
      .ok (s.sendFailedReason host msg ErrorCode.parameterInvalid) := by
  rw [dispatchAppMsg, h]

theorem routeFun_of_dispatchAppMsg {s s' : LobbyModule P}
    (h : s.dispatchAppMsg host headerFound userId msg = .ok s')
    {rout : MsgRout} (hrout : s.findRoute msg.header.cmdtype = some rout) :
    ∃ f, rout.routeFun = some f := by
  rw [dispatchAppMsg, hrout] at h
  dsimp only at h
  rw [MsgRout.getExRoute] at h
  cases hfun : rout.routeFun with
  | none =>
      rw [hfun] at h
      cases h
  | some f => exact ⟨f, rfl⟩

end LobbyModule

theorem not_dispatches_of_match {P : Protobuf} {host : Host P}
    {headerFound : MqMsg P → MqHeader} {roomId : TcpMsg P → BitVec 32}
    {userId : BitVec 32} {msg : TcpMsg P} (hmsg : Serializable msg.pbmessage)
    {before after : LobbyModule P} {rout : MsgRout}
    (hrout : before.findRoute msg.header.cmdtype = some rout)
    (h : before.dispatchAppMsg host headerFound userId msg = .ok after) :
    ¬Dispatches host roomId userId msg before after := by
  intro hdispatches
  obtain ⟨f, hf⟩ := LobbyModule.routeFun_of_dispatchAppMsg h hrout
  obtain ⟨amqp, hpublished, _⟩ := hdispatches.published rout hrout f hf
  rw [LobbyModule.published_dispatchAppMsg hmsg h] at hpublished
  exact List.cons_ne_nil _ _ (List.self_eq_append_right.mp hpublished)

/--
A message is dispatched as it should be exactly if no range contains its
command: it is refused then, and no message is ever published.
-/
theorem dispatches_iff_unmatched {P : Protobuf} (host : Host P)
    (headerFound : MqMsg P → MqHeader) (roomId : TcpMsg P → BitVec 32)
    (userId : BitVec 32) (msg : TcpMsg P) (before : LobbyModule P)
    (hmsg : Serializable msg.pbmessage) :
    (∃ after, before.dispatchAppMsg host headerFound userId msg = .ok after ∧
      Dispatches host roomId userId msg before after) ↔
    ∀ rout ∈ before.msgRoute,
      rout.isCmdMatch msg.header.cmdtype = false := by
  rw [← LobbyModule.findRoute_eq_none_iff]
  constructor
  · rintro ⟨after, hafter, hdispatches⟩
    cases hrout : before.findRoute msg.header.cmdtype with
    | none => rfl
    | some rout =>
        exact absurd hdispatches (not_dispatches_of_match hmsg hrout hafter)
  · intro hnone
    refine ⟨_, LobbyModule.dispatchAppMsg_of_none hnone, ?_⟩
    constructor
    · intro rout hrout
      rw [hnone] at hrout
      cases hrout
    · constructor
      · intro _
        exact (LobbyModule.findRoute_eq_none_iff _ _).mp hnone
      · intro _
        exact ⟨rfl, rfl⟩

/-! ## A route to the money servers -/

def moneyConfig (cmdBegin : Scalar) : RouteConfig where
  members := .object [
    (ascii "cmd_begin", cmdBegin),
    (ascii "cmd_end", .string (ascii "53000")),
    (ascii "exchange", .string (ascii "moneysvr.direct")),
    (ascii "route", .string (ascii "moneysvr")),
    (ascii "type", .string (ascii "1"))]
  special := .object [(ascii "total_count", .string (ascii "10"))]

def moneyRoute : MsgRout where
  cmdBegin := 52000
  cmdEnd := 53000
  routeFun := some
    (.hash ⟨10, ascii "moneysvr.direct", ascii "moneysvr"⟩)

example : parseRouteConfig [moneyConfig (.numberInteger 52000)] =
    .ok [moneyRoute] := by
  decide +kernel

-- The configuration that is delivered writes every number as a text.
example : parseRouteConfig [moneyConfig (.string (ascii "52000"))] =
    .error .type := by
  decide +kernel

def moneyModule : LobbyModule systemProtobuf where
  msgRoute := [moneyRoute]
  mq := ⟨some MqSession.sample, .new, false⟩
  replies := []

def moneyMsg (cmdtype : BitVec 32) : TcpMsg systemProtobuf where
  header := { Header.empty with cmdtype := cmdtype }
  pbmessage := ⟨.request .commRpc, Fields.text [0x7b, 0x7d]⟩

theorem moneyMsg_serializable (cmdtype : BitVec 32) :
    Serializable (moneyMsg cmdtype).pbmessage := by
  change (moneyMsg 0).pbmessage.bytes.length < 2 ^ 31
  decide +kernel

theorem unmatched_dispatches :
    ∃ after, moneyModule.dispatchAppMsg MqSession.sampleHost Message.header
        1 (moneyMsg 53000) = .ok after ∧
      Dispatches MqSession.sampleHost (fun _ => 1000) 1 (moneyMsg 53000)
        moneyModule after :=
  (dispatches_iff_unmatched _ _ _ _ _ _ (moneyMsg_serializable 53000)).mpr
    (by decide)

theorem matched_not_dispatched :
    ¬∀ (host : Host systemProtobuf)
      (headerFound : MqMsg systemProtobuf → MqHeader)
      (roomId : TcpMsg systemProtobuf → BitVec 32) (userId : BitVec 32)
      (msg : TcpMsg systemProtobuf) (before : LobbyModule systemProtobuf),
      Serializable msg.pbmessage → 0 ≤ userId.toInt →
      (∀ rout ∈ before.msgRoute, ∃ f, rout.routeFun = some f ∧ f.Positive) →
      before.mq.session.isSome →
      ∃ after,
        before.dispatchAppMsg host headerFound userId msg = .ok after ∧
        Dispatches host roomId userId msg before after := by
  intro hall
  have hpositive : ∀ rout ∈ moneyModule.msgRoute,
      ∃ f, rout.routeFun = some f ∧ f.Positive := by
    intro rout hrout
    cases List.mem_singleton.mp hrout
    exact ⟨_, rfl, show 0 < (10 : BitVec 32).toInt by decide⟩
  obtain ⟨after, hafter, hdispatches⟩ := hall MqSession.sampleHost
    Message.header (fun _ => 1000) 1 (moneyMsg 52000) moneyModule
    (moneyMsg_serializable 52000) (by decide) hpositive rfl
  have hrout : moneyModule.findRoute (moneyMsg 52000).header.cmdtype =
      some moneyRoute := by
    decide
  exact not_dispatches_of_match (moneyMsg_serializable 52000) hrout hafter
    hdispatches

end StarsGaming.Lobby
