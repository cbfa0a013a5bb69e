import StarsGaming.Desk.Requests

/-!
# Declares as they are sent

A declare is checked on cards narrowed to bytes, but what the other players are
shown is the message itself.  The two agree exactly when no field of the
message leaves the byte range, unless the declare is refused anyway.
-/

namespace StarsGaming.Cards

open PokerCard

def PokerCard.toMsgCard (card : PokerCard) : MsgCard :=
  ⟨card.point, card.color⟩

def MsgCard.InBytes (card : MsgCard) : Prop :=
  (0 ≤ card.point ∧ card.point < 256) ∧ 0 ≤ card.color ∧ card.color < 256

instance (card : MsgCard) : Decidable card.InBytes :=
  inferInstanceAs (Decidable (_ ∧ _))

end StarsGaming.Cards

namespace StarsGaming.Desk

open Cards

/-! ## Messages -/

structure ApplyDeclareRequest where
  userid : Int
  declarecard : MsgCard
  cardgroup : List MsgCardGroup
  deriving DecidableEq, Repr

structure PlayerDeclareRequest where
  userid : Int
  declarecard : MsgCard
  cardgroup : List MsgCardGroup
  deriving DecidableEq, Repr

/-- The cards of all groups and the declare card, none of them narrowed. -/
def sentCards (cardgroup : List MsgCardGroup) (declarecard : MsgCard) :
    List MsgCard :=
  cardgroup.flatMap MsgCardGroup.cards ++ [declarecard]

namespace ApplyDeclareRequest

def groups (msg : ApplyDeclareRequest) : List CardGroup :=
  msg.cardgroup.map CardGroup.parseMsgGroup

def cards (msg : ApplyDeclareRequest) : List MsgCard :=
  sentCards msg.cardgroup msg.declarecard

end ApplyDeclareRequest

/-- `GameSeat::check_declare` on the message itself. -/
def GameSeat.checkDeclareMsg (msg : ApplyDeclareRequest) (jokerPoint : Nat)
    (seat : GameSeat) : GameSeat × Bool :=
  seat.checkDeclare (parseCard msg.declarecard) msg.groups jokerPoint

/-- What `GameDesk::player_declare` tells the room. -/
def GameDesk.declareBroadcast (userId : Int) (msg : ApplyDeclareRequest)
    (desk : GameDesk) (number : SeatNum) : Option PlayerDeclareRequest :=
  if (desk.seats number).status.ingame = false ∨ desk.round ≠ .active2 ∨
      desk.activeSeatnum ≠ some number then none
  else if ((desk.seats number).checkDeclareMsg msg desk.jokerCard.point).2
  then some ⟨userId, msg.declarecard, msg.cardgroup⟩
  else none

/-! ## Narrowing -/

theorem toMsgCard_parseCard {card : MsgCard} (hbytes : card.InBytes) :
    (parseCard card).toMsgCard = card := by
  obtain ⟨point, color⟩ := card
  obtain ⟨⟨hpoint, hpoint'⟩, hcolor, hcolor'⟩ := hbytes
  simp only [parseCard, PokerCard.parseMsgCard, PokerCard.toMsgCard,
    MsgCard.mk.injEq] at *
  omega

theorem inBytes_parseCard (card : MsgCard) :
    (parseCard card).toMsgCard.InBytes := by
  simp only [parseCard, PokerCard.parseMsgCard, PokerCard.toMsgCard,
    MsgCard.InBytes]
  omega

theorem cards_groups (msg : ApplyDeclareRequest) :
    GameSeat.groupCards msg.groups ++ [parseCard msg.declarecard] =
      msg.cards.map parseCard := by
  simp only [GameSeat.groupCards, ApplyDeclareRequest.groups,
    ApplyDeclareRequest.cards, sentCards, List.flatMap_map, List.map_append,
    List.map_flatMap, List.map_cons, List.map_nil]
  rfl

/-- Cards that narrow to a hand are that hand when none of them changes. -/
theorem sent_perm_iff {cards : List MsgCard} {hand : List PokerCard}
    (hparse : (cards.map parseCard).Perm hand) :
    cards.Perm (hand.map PokerCard.toMsgCard) ↔
      ∀ card ∈ cards, card.InBytes := by
  have hback := hparse.map PokerCard.toMsgCard
  rw [List.map_map] at hback
  constructor
  · intro hperm card hmem
    have hnarrow := (hperm.trans hback.symm).mem_iff.mp hmem
    obtain ⟨sent, -, rfl⟩ := List.mem_map.mp hnarrow
    exact inBytes_parseCard sent
  · intro hbytes
    have hsame : ∀ card ∈ cards,
        (PokerCard.toMsgCard ∘ parseCard) card = id card :=
      fun card hmem => toMsgCard_parseCard (hbytes card hmem)
    rwa [List.map_congr_left hsame, List.map_id] at hback

/-! ## Accepted and refused declares -/

theorem checkDeclare_accepts_iff {card : PokerCard} {groups : List CardGroup}
    {jokerPoint : Nat} {seat : GameSeat} :
    (seat.checkDeclare card groups jokerPoint).2 = true ↔
      (GameSeat.groupCards groups ++ [card]).Perm seat.handcardsTotal ∧
        isGroupsDeclare groups jokerPoint = true := by
  have hsorted : sortCards (GameSeat.groupCards groups ++ [card]) =
      sortCards seat.handcardsTotal ↔
        (GameSeat.groupCards groups ++ [card]).Perm seat.handcardsTotal := by
    constructor
    · intro heq
      have hperm := sortCards_perm (GameSeat.groupCards groups ++ [card])
      rw [heq] at hperm
      exact hperm.symm.trans (sortCards_perm _)
    · exact sortCards_congr
  unfold GameSeat.checkDeclare
  split
  next =>
    dsimp only
    split
    next hdiffer =>
      rw [ne_eq, hsorted] at hdiffer
      simp [hdiffer]
    next hsame =>
      rw [not_not, hsorted] at hsame
      cases isGroupsDeclare groups jokerPoint <;> simp [hsame]
  next hmissing =>
    simp only [Bool.false_eq_true, false_iff, not_and]
    intro hperm
    exact absurd (hperm.subset (by simp)) hmissing

/-- Only the order of the hand may differ after a refused declare. -/
structure Refused (before after : GameSeat) : Prop where
  score : after.score = before.score
  cardScore : after.cardScore = before.cardScore
  cardGroup : after.cardGroup = before.cardGroup
  status : after.status = before.status
  hand : after.handcardsTotal.Perm before.handcardsTotal

theorem checkDeclare_refused {card : PokerCard} {groups : List CardGroup}
    {jokerPoint : Nat} {seat : GameSeat}
    (hrefused : (seat.checkDeclare card groups jokerPoint).2 = false) :
    Refused seat (seat.checkDeclare card groups jokerPoint).1 := by
  obtain h | h | ⟨after, h, -⟩ :=
    GameDesk.checkDeclare_cases card groups jokerPoint seat
  · rw [h]
    exact ⟨rfl, rfl, rfl, rfl, List.Perm.refl _⟩
  · rw [h]
    exact ⟨rfl, rfl, rfl, rfl, sortCards_perm _⟩
  · rw [h] at hrefused
    exact absurd hrefused (by simp)

/-- The message is the hand when accepted and leaves no trace when not. -/
structure HonestDeclare (msg : ApplyDeclareRequest) (jokerPoint : Nat)
    (seat : GameSeat) : Prop where
  sent : (seat.checkDeclareMsg msg jokerPoint).2 = true →
    msg.cards.Perm (seat.handcardsTotal.map PokerCard.toMsgCard)
  grouped : (seat.checkDeclareMsg msg jokerPoint).2 = true →
    (msg.cardgroup.flatMap MsgCardGroup.cards).length = 13
  refused : (seat.checkDeclareMsg msg jokerPoint).2 = false →
    Refused seat (seat.checkDeclareMsg msg jokerPoint).1

/-- The narrowed message is a declare of the hand, the message is not. -/
def Disguised (msg : ApplyDeclareRequest) (jokerPoint : Nat)
    (hand : List PokerCard) : Prop :=
  (msg.cards.map parseCard).Perm hand ∧
    isGroupsDeclare msg.groups jokerPoint = true ∧
      ∃ card ∈ msg.cards, ¬ card.InBytes

theorem checkDeclareMsg_accepts_iff {msg : ApplyDeclareRequest}
    {jokerPoint : Nat} {seat : GameSeat} :
    (seat.checkDeclareMsg msg jokerPoint).2 = true ↔
      (msg.cards.map parseCard).Perm seat.handcardsTotal ∧
        isGroupsDeclare msg.groups jokerPoint = true := by
  rw [GameSeat.checkDeclareMsg, checkDeclare_accepts_iff, cards_groups]

theorem accepted_length {msg : ApplyDeclareRequest} {hand : List PokerCard}
    (hlength : hand.length = 14)
    (hparse : (msg.cards.map parseCard).Perm hand) :
    (msg.cardgroup.flatMap MsgCardGroup.cards).length = 13 := by
  have hcards := hparse.length_eq
  rw [List.length_map, ApplyDeclareRequest.cards, sentCards,
    List.length_append, hlength] at hcards
  exact Nat.succ.inj hcards

theorem declareBroadcast_cards {userId : Int} {msg : ApplyDeclareRequest}
    {desk : GameDesk} {number : SeatNum} {request : PlayerDeclareRequest}
    (hsend : desk.declareBroadcast userId msg number = some request) :
    ((desk.seats number).checkDeclareMsg msg desk.jokerCard.point).2 = true ∧
      sentCards request.cardgroup request.declarecard = msg.cards := by
  unfold GameDesk.declareBroadcast at hsend
  split at hsend
  next => exact absurd hsend (by simp)
  next =>
    split at hsend
    next haccept =>
      obtain rfl := Option.some.inj hsend
      exact ⟨haccept, rfl⟩
    next => exact absurd hsend (by simp)

def declaringSeat : GameSeat :=
  { GameSeat.empty with
    status := { SeatStatus.idle with seated := true, ingame := true }
    handcardsTotal :=
      [⟨1, 2⟩, ⟨1, 3⟩, ⟨1, 4⟩, ⟨2, 5⟩, ⟨2, 6⟩, ⟨2, 7⟩, ⟨3, 8⟩, ⟨3, 9⟩,
        ⟨3, 10⟩, ⟨3, 11⟩, ⟨4, 12⟩, ⟨1, 13⟩, ⟨2, 13⟩, ⟨3, 13⟩] }

def declaringDesk : GameDesk :=
  { GameDesk.create ⟨initCards, List.Perm.refl _⟩ with
    seats := fun _ => declaringSeat
    round := .active2
    activeSeatnum := some ⟨0, Nat.zero_lt_succ 4⟩
    jokerCard := ⟨4, 14⟩ }

def declareWith (point : Int) : ApplyDeclareRequest where
  userid := 7
  declarecard := ⟨12, 4⟩
  cardgroup :=
    [⟨1, [⟨point, 1⟩, ⟨3, 1⟩, ⟨4, 1⟩]⟩, ⟨1, [⟨5, 2⟩, ⟨6, 2⟩, ⟨7, 2⟩]⟩,
      ⟨1, [⟨8, 3⟩, ⟨9, 3⟩, ⟨10, 3⟩, ⟨11, 3⟩]⟩,
      ⟨2, [⟨13, 1⟩, ⟨13, 2⟩, ⟨13, 3⟩]⟩]

/-- A declare is honest unless bytes disguise other cards as the hand. -/
theorem declare_honest_iff (msg : ApplyDeclareRequest) (desk : GameDesk)
    (number : SeatNum)
    (hlength : (desk.seats number).handcardsTotal.length = 14) :
    (HonestDeclare msg desk.jokerCard.point (desk.seats number) ∧
      ∀ userId request,
        desk.declareBroadcast userId msg number = some request →
          (sentCards request.cardgroup request.declarecard).Perm
            ((desk.seats number).handcardsTotal.map PokerCard.toMsgCard)) ↔
      ¬ Disguised msg desk.jokerCard.point
        (desk.seats number).handcardsTotal := by
  constructor
  · rintro ⟨honest, -⟩ ⟨hparse, hdeclare, card, hmem, hbytes⟩
    have haccept := checkDeclareMsg_accepts_iff.mpr ⟨hparse, hdeclare⟩
    exact hbytes ((sent_perm_iff hparse).mp (honest.sent haccept) card hmem)
  · intro hplain
    have hsent : ((desk.seats number).checkDeclareMsg msg
        desk.jokerCard.point).2 = true → msg.cards.Perm
          ((desk.seats number).handcardsTotal.map PokerCard.toMsgCard) := by
      intro haccept
      obtain ⟨hparse, hdeclare⟩ := checkDeclareMsg_accepts_iff.mp haccept
      refine (sent_perm_iff hparse).mpr fun card hmem => ?_
      by_contra hbytes
      exact hplain ⟨hparse, hdeclare, card, hmem, hbytes⟩
    refine ⟨⟨hsent, fun haccept => ?_, checkDeclare_refused⟩, ?_⟩
    · exact accepted_length hlength
        (checkDeclareMsg_accepts_iff.mp haccept).1
    · intro userId request hbroadcast
      obtain ⟨haccept, hcards⟩ := declareBroadcast_cards hbroadcast
      rw [hcards]
      exact hsent haccept

theorem plain_declare_honest :
    (HonestDeclare (declareWith 2) declaringDesk.jokerCard.point
        (declaringDesk.seats 0) ∧
      ∀ userId request,
        declaringDesk.declareBroadcast userId (declareWith 2) 0 =
            some request →
          (sentCards request.cardgroup request.declarecard).Perm
            ((declaringDesk.seats 0).handcardsTotal.map
              PokerCard.toMsgCard)) ∧
      (declaringSeat.checkDeclareMsg (declareWith 2) 14).2 = true := by
  have hbytes : ∀ card ∈ (declareWith 2).cards, card.InBytes := by decide
  refine ⟨(declare_honest_iff (declareWith 2) declaringDesk 0 rfl).mpr ?_,
    by decide +kernel⟩
  rintro ⟨-, -, card, hmem, hcard⟩
  exact hcard (hbytes card hmem)

theorem disguised_declare_accepted :
    declaringSeat.handcardsTotal.length = 14 ∧
      (declaringSeat.checkDeclareMsg (declareWith 258) 14).2 = true ∧
      declaringDesk.declareBroadcast 7 (declareWith 258) 0 =
        some ⟨7, (declareWith 258).declarecard,
          (declareWith 258).cardgroup⟩ ∧
      ¬ (declareWith 258).cards.Perm
        (declaringSeat.handcardsTotal.map PokerCard.toMsgCard) := by
  decide +kernel

end StarsGaming.Desk
