import StarsGaming.Net.Header

/-!
# What all sessions share

Sessions number the messages they send and make up responses of their own.
The code is written once for both kinds of header.  Timers call their handler
when they expire or are cancelled.
-/

namespace StarsGaming.Net

open Foundation

namespace ErrorCode

def waitRespTimeout : BitVec 32 := 3

def systemError : BitVec 32 := 4

end ErrorCode

/-- A timer that waits, or whose handler is queued without or with an error. -/
inductive TimerState where
  | waiting
  | expired
  | cancelled
  deriving DecidableEq

/-- `cancel()` only reaches a handler that is not yet queued. -/
def TimerState.cancel : TimerState → TimerState
  | waiting => cancelled
  | queued => queued

variable {H : Type} [HeaderType H] {P : Protobuf}

/-- A response; its body is null where no class was found for it. -/
structure Reply (H : Type) (P : Protobuf) where
  header : H
  pbmessage : Option (PbMessage P)

def Reply.sequenceid (reply : Reply H P) : BitVec 64 :=
  HeaderType.sequenceid reply.header

/-- A response without fields to a command, its header left empty. -/
def makeResponse (maker : MessageMaker P) (cmdType : BitVec 32) :
    Reply H P where
  header := HeaderType.empty
  pbmessage :=
    (maker.makeMessage MsgType.responseMask cmdType).map fun kind =>
      ⟨kind, P.new kind⟩

def setMsgSequenceid (header : H) (sequenceid : BitVec 64) : H × BitVec 64 :=
  let header :=
    if HeaderType.type header = 0 then
      HeaderType.setType MsgType.notifyRequest header
    else header
  (HeaderType.setSequenceid sequenceid header, sequenceid + 1)

theorem sequenceid_setMsgSequenceid (header : H) (sequenceid : BitVec 64) :
    HeaderType.sequenceid (setMsgSequenceid header sequenceid).1 =
      sequenceid := by
  simp [setMsgSequenceid]

end StarsGaming.Net
