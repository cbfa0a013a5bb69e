import StarsGaming.Net.AsyncRequest
import StarsGaming.Net.SynRequest

/-!
# Replies

A handler answers a request in one of three ways, each of which builds the
header of the reply differently.  The side that asked sorts the reply by its
type and looks for the request under the reply's sequence number.
-/

namespace StarsGaming.Net

variable {H : Type} [HeaderType H] {P : Protobuf}

/-! ## The three ways to answer -/

def responseType (type : BitVec 32) : BitVec 32 :=
  (type ^^^ MsgType.requestMask) ||| MsgType.responseMask

namespace Message

/-- `send_response(int, pb)`: the code is not used. -/
def sendResponsePb (request : Message H P) (_failReson : BitVec 32)
    (response : PbMessage P) : Reply H P where
  header := HeaderType.setType
    (responseType (HeaderType.type request.header))
    (HeaderType.setCmdtype (HeaderType.cmdtype request.header)
      HeaderType.empty)
  pbmessage := some response

def sendResponse (request : Message H P) (response : Reply H P) :
    Reply H P where
  header := HeaderType.setSequenceid (HeaderType.sequenceid request.header)
    (HeaderType.setType (responseType (HeaderType.type request.header))
      (HeaderType.setCmdtype (HeaderType.cmdtype request.header)
        response.header))
  pbmessage := response.pbmessage

def sendFailedReason (maker : MessageMaker P) (request : Message H P)
    (failReson : BitVec 32) : Reply H P :=
  let response : Reply H P :=
    makeResponse maker (HeaderType.cmdtype request.header)
  request.sendResponse { response with
    header := HeaderType.setResponseResult failReson response.header }

end Message

inductive Answer (H : Type) (P : Protobuf) where
  | responsePb (failReson : BitVec 32) (response : PbMessage P)
  | responseMsg (response : Reply H P)
  | failedReason (failReson : BitVec 32)

namespace Answer

def reply (maker : MessageMaker P) (request : Message H P) :
    Answer H P → Reply H P
  | responsePb failReson response => request.sendResponsePb failReson response
  | responseMsg response => request.sendResponse response
  | failedReason failReson => request.sendFailedReason maker failReson

def code : Answer H P → Option (BitVec 32)
  | responsePb failReson _ | failedReason failReson => some failReson
  | responseMsg _ => none

end Answer

/-! ## The side that asked -/

inductive Dealt where
  | dealMessage
  | dealHeartBeatMessage
  | dealSynResponse
  | dealAsynResponse
  | dealHeartBeatResponse
  | ignored
  deriving DecidableEq

def basicDeal (header : H) : Dealt :=
  let type := HeaderType.type header
  if type = MsgType.synRequest ∨ type = MsgType.notifyRequest ∨
      type = MsgType.asynRequest then .dealMessage
  else if type = MsgType.asynResponse then .dealAsynResponse
  else if type = MsgType.synResponse then .dealSynResponse
  else if type = MsgType.heartbeatRequest then .dealHeartBeatMessage
  else if type = MsgType.heartbeatResponse then .dealHeartBeatResponse
  else .ignored

def Found (request : Message H P) (reply : Reply H P) : Prop :=
  (HeaderType.type request.header = MsgType.synRequest →
    basicDeal reply.header = .dealSynResponse ∧
    ∀ s : SynRequest H P,
      s.sendSequenceid = HeaderType.sequenceid request.header →
      s.step (.responseCome reply) = .ok { s with loop := .matched reply }) ∧
  (HeaderType.type request.header = MsgType.asynRequest →
    basicDeal reply.header = .dealAsynResponse ∧
    ∀ (s : AsyncRequest H P) (item : AsynItem H),
      s.items (HeaderType.sequenceid request.header) = some item →
      s.find reply = some item)

structure Matches (request : Message H P) (answer : Answer H P)
    (reply : Reply H P) : Prop where
  cmdtype : HeaderType.cmdtype reply.header =
    HeaderType.cmdtype request.header
  sequenceid : reply.sequenceid = HeaderType.sequenceid request.header
  type : HeaderType.type reply.header =
    if HeaderType.type request.header = MsgType.synRequest then
      MsgType.synResponse
    else MsgType.asynResponse
  result : ∀ code ∈ answer.code,
    HeaderType.responseResult reply.header = code.signExtend 64
  found : Found request reply

def IsRequest (request : Message H P) : Prop :=
  HeaderType.type request.header = MsgType.synRequest ∨
    HeaderType.type request.header = MsgType.asynRequest

theorem responseType_of_isRequest {request : Message H P}
    (h : IsRequest request) :
    responseType (HeaderType.type request.header) =
      if HeaderType.type request.header = MsgType.synRequest then
        MsgType.synResponse
      else MsgType.asynResponse := by
  rcases h with hsyn | hasyn
  · rw [hsyn]
    decide
  · rw [hasyn]
    decide

theorem found_of_header {request : Message H P} {reply : Reply H P}
    (htype : HeaderType.type reply.header =
      if HeaderType.type request.header = MsgType.synRequest then
        MsgType.synResponse
      else MsgType.asynResponse)
    (hseq : reply.sequenceid = HeaderType.sequenceid request.header) :
    Found request reply := by
  constructor
  · intro hsyn
    rw [if_pos hsyn] at htype
    constructor
    · rw [basicDeal, htype]
      decide
    · intro s hs
      rw [SynRequest.step, if_neg]
      rw [hs, hseq]
      exact fun hne => hne rfl
  · intro hasyn
    have hne : HeaderType.type request.header ≠ MsgType.synRequest := by
      rw [hasyn]
      decide
    rw [if_neg hne] at htype
    constructor
    · rw [basicDeal, htype]
      decide
    · intro s item hitem
      rw [AsyncRequest.find, hseq]
      exact hitem

theorem sendResponse_matches {request : Message H P}
    (h : IsRequest request) {answer : Answer H P} (response : Reply H P)
    (hresult : ∀ code ∈ answer.code,
      HeaderType.responseResult response.header = code.signExtend 64) :
    Matches request answer (request.sendResponse response) := by
  have htype := responseType_of_isRequest h
  have hseq : (request.sendResponse response).sequenceid =
      HeaderType.sequenceid request.header := by
    simp [Message.sendResponse, Reply.sequenceid]
  constructor
  · simp [Message.sendResponse]
  · exact hseq
  · simp [Message.sendResponse, htype]
  · intro code hcode
    simp [Message.sendResponse, hresult code hcode]
  · apply found_of_header _ hseq
    simp [Message.sendResponse, htype]

theorem sendResponsePb_matches_iff {request : Message H P}
    (h : IsRequest request) (failReson : BitVec 32)
    (response : PbMessage P) :
    Matches request (.responsePb failReson response)
        (request.sendResponsePb failReson response) ↔
      HeaderType.sequenceid request.header = 0 ∧ failReson = 0 := by
  have htype := responseType_of_isRequest h
  have hseq : (request.sendResponsePb failReson response).sequenceid = 0 := by
    simp [Message.sendResponsePb, Reply.sequenceid]
  constructor
  · intro hmatches
    constructor
    · rw [← hmatches.sequenceid, hseq]
    · have hresult := hmatches.result failReson rfl
      simp only [Message.sendResponsePb, HeaderType.responseResult_setType,
        HeaderType.responseResult_setCmdtype,
        HeaderType.empty_responseResult] at hresult
      have hint := congrArg BitVec.toInt hresult
      rw [BitVec.toInt_signExtend_of_le (by decide)] at hint
      exact (BitVec.eq_of_toInt_eq hint).symm
  · rintro ⟨hzero, rfl⟩
    constructor
    · simp [Message.sendResponsePb]
    · rw [hseq, hzero]
    · simp [Message.sendResponsePb, htype]
    · intro code hcode
      cases hcode
      simp [Message.sendResponsePb]
    · apply found_of_header
      · simp [Message.sendResponsePb, htype]
      · rw [hseq, hzero]

/--
A reply matches its request unless it is sent with a code and a body; then only
if the request has the number zero and the code says success.
-/
theorem reply_matches_iff (maker : MessageMaker P) (request : Message H P)
    (h : IsRequest request) (answer : Answer H P) :
    Matches request answer (answer.reply maker request) ↔
      ∀ failReson response, answer = .responsePb failReson response →
        HeaderType.sequenceid request.header = 0 ∧ failReson = 0 := by
  cases answer with
  | responsePb failReson response =>
      rw [Answer.reply, sendResponsePb_matches_iff h]
      constructor
      · rintro hzero _ _ ⟨⟩
        exact hzero
      · intro hall
        exact hall failReson response rfl
  | responseMsg response =>
      constructor
      · intro _ failReson pb heq
        cases heq
      · intro _
        apply sendResponse_matches h
        intro code hcode
        cases hcode
  | failedReason failReson =>
      constructor
      · intro _ failReson pb heq
        cases heq
      · intro _
        apply sendResponse_matches h
        intro code hcode
        cases hcode
        simp

def sampleRequest : Message Header systemProtobuf where
  header :=
    { Header.empty with
      cmdtype := SystemMsg.commRpc.cmd
      type := MsgType.asynRequest
      sequenceid := 1 }
  pbmessage := ⟨.request .commRpc, Fields.empty⟩

theorem sampleRequest_failed_matches :
    IsRequest sampleRequest ∧
      Matches sampleRequest (.failedReason ErrorCode.systemError)
        (sampleRequest.sendFailedReason .new ErrorCode.systemError) := by
  have hrequest : IsRequest sampleRequest := .inr rfl
  refine ⟨hrequest, ?_⟩
  have hiff := reply_matches_iff .new sampleRequest hrequest
    (.failedReason ErrorCode.systemError)
  apply hiff.mpr
  intro failReson response heq
  cases heq

theorem sampleRequest_success_lost :
    ¬∀ (maker : MessageMaker systemProtobuf)
      (request : Message Header systemProtobuf), IsRequest request →
      ∀ answer : Answer Header systemProtobuf,
        Matches request answer (answer.reply maker request) := by
  intro hall
  have hmatches := hall .new sampleRequest (.inr rfl)
    (.responsePb 0 ⟨.response .commRpc, Fields.empty⟩)
  have hseq := hmatches.sequenceid
  revert hseq
  decide

end StarsGaming.Net
