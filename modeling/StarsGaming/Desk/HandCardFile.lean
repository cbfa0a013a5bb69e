import StarsGaming.Desk.Dealer
import StarsGaming.Foundation.Loops
import StarsGaming.Lobby.Dispatch

/-!
# Dealing from `hand_card_rummy.txt`

`get_card_from_file` takes the cards named in the file out of the shuffled deck
one by one, fills the hands up from what is left and puts the rest at the end.
A card that cannot be found makes it fall back to the deck, from which the
cards before it are already taken.
-/

namespace StarsGaming.Desk

open Cards PokerCard
open Foundation

/-- The reading functions of JSON values; `none` is an exception. -/
structure JsonReader (Value : Type) where
  isNull : Value → Bool
  isArray : Value → Bool
  isInt : Value → Bool
  empty : Value → Bool
  size : Value → Nat
  member : Value → String → Option Value
  element : Value → Nat → Option Value
  asBool : Value → Option Bool
  asInt : Value → Option Int
  asString : Value → Option (List Byte)

def parseString (v : List Byte) : PokerCard :=
  let pos := v.idxOf 0x3a
  if pos = v.length then blank
  else
    ⟨(Lobby.atoi (v.take pos)).toNat % 256,
      (Lobby.atoi (v.drop (pos + 1))).toNat % 256⟩

/-! ## What is read of the file -/

section Reading

variable {Value : Type} (reader : JsonReader Value)
  (atoi64 : List Byte → Int)

def hasNoCards (jv : Value) : Option Bool :=
  if reader.isNull jv then some true
  else do
    let available ← reader.member jv "available"
    if reader.isNull available then some true
    else
      let cards ← reader.member jv "cards"
      some (reader.isNull cards || !reader.isArray cards)

def isAvailable (jv : Value) : Option Bool := do
  let noCards ← hasNoCards reader jv
  if noCards then some false
  else
    let available ← reader.member jv "available"
    reader.asBool available

def isBlindListed (jv : Value) (smallblind : Int) : Option Bool := do
  let smallBlind ← reader.member jv "small_blind"
  if !reader.isNull smallBlind && reader.isArray smallBlind &&
      !reader.empty smallBlind then
    let blinds ← collect
      (fun i => do
        let one ← reader.element smallBlind i
        let text ← reader.asString one
        some [atoi64 text])
      (List.range (reader.size smallBlind))
    some (decide (smallblind ∈ blinds))
  else some true

def readInt (jv : Value) (name : String) (old : Int) : Option Int := do
  let value ← reader.member jv name
  if !reader.isNull value && reader.isInt value then reader.asInt value
  else some old

def textsOf (cards : Option Value) : List (Option (List Byte)) :=
  match cards with
  | none => [none]
  | some cards =>
      (List.range (reader.size cards)).map fun i => do
        let one ← reader.element cards i
        reader.asString one

def handTexts (jv : Value) : List (List (Option (List Byte))) :=
  match reader.member jv "cards" with
  | none => [[none]]
  | some jvArray =>
      (List.range (min 5 (reader.size jvArray))).map fun i =>
        (textsOf reader (reader.element jvArray i)).take
          CardDealer.HAND_CARD_COUNT

def bottomTexts (jv : Value) : List (Option (List Byte)) :=
  textsOf reader (reader.member jv "bottom_cards")

end Reading

/-! ## Taking the cards out of the deck -/

inductive Taking (α : Type) where
  | threw
  | cardsError (allCard : List PokerCard)
  | taken (cards : α) (allCard : List PokerCard)

namespace Taking

variable {α β : Type}

def bind (t : Taking α) (f : α → List PokerCard → Taking β) : Taking β :=
  match t with
  | threw => threw
  | cardsError allCard => cardsError allCard
  | taken cards allCard => f cards allCard

def map (f : α → β) (t : Taking α) : Taking β :=
  t.bind fun cards allCard => taken (f cards) allCard

end Taking

def takeCards : List (Option (List Byte)) → List PokerCard →
    Taking (List PokerCard)
  | [], allCard => .taken [] allCard
  | none :: _, _ => .threw
  | some text :: rest, allCard =>
      let pc := parseString text
      if pc ∈ allCard then
        (takeCards rest (allCard.erase pc)).map (pc :: ·)
      else .cardsError allCard

def takeHands : List (List (Option (List Byte))) → List PokerCard →
    Taking (List (List PokerCard))
  | [], allCard => .taken [] allCard
  | texts :: rest, allCard =>
      (takeCards texts allCard).bind fun hand allCard =>
        (takeHands rest allCard).map (hand :: ·)

def takeFile (hands : List (List (Option (List Byte))))
    (bottom : List (Option (List Byte))) (allCard : List PokerCard) :
    Taking (List (List PokerCard) × List PokerCard) :=
  (takeHands hands allCard).bind fun vecHandCard allCard =>
    (takeCards bottom allCard).map fun bottomCard => (vecHandCard, bottomCard)

/-- Fill a hand up with the next cards; `front` needs one. -/
def fillHand : Nat → List PokerCard → List PokerCard →
    Option (List PokerCard × List PokerCard)
  | 0, _, allCard => some ([], allCard)
  | count + 1, card :: hand, allCard => do
      let (vecCard, allCard) ← fillHand count hand allCard
      some (card :: vecCard, allCard)
  | count + 1, [], card :: allCard => do
      let (vecCard, allCard) ← fillHand count [] allCard
      some (card :: vecCard, allCard)
  | _ + 1, [], [] => none

def fillHands : List (List PokerCard) → List PokerCard →
    Option (List PokerCard × List PokerCard)
  | [], allCard => some ([], allCard)
  | hand :: hands, allCard => do
      let (vecCard, allCard) ←
        fillHand CardDealer.HAND_CARD_COUNT hand allCard
      let (vecCards, allCard) ← fillHands hands allCard
      some (vecCard ++ vecCards, allCard)

/-- What `get_card_from_file` leaves in its reference parameters. -/
structure FileDeal where
  vecCard : List PokerCard
  allCard : List PokerCard
  drawSec : Int
  leftBottomCount : Int
  deriving DecidableEq, Repr

def dealTaken (drawSec leftBottomCount : Int) :
    Taking (List (List PokerCard) × List PokerCard) → Option FileDeal
  | .threw => none
  | .cardsError allCard =>
      some ⟨allCard, allCard, drawSec, leftBottomCount⟩
  | .taken (vecHandCard, bottomCard) allCard => do
      let (vecCard, allCard) ← fillHands vecHandCard allCard
      some ⟨vecCard ++ bottomCard ++ allCard, allCard, drawSec,
        leftBottomCount⟩

/--
The file is `none` when it cannot be opened.  The result is `none` when a
reading function throws or a card is taken from an empty list.
-/
def getCardFromFile {Value : Type} (reader : JsonReader Value)
    (atoi64 : List Byte → Int) (file : Option Value)
    (allCard : List PokerCard) (drawSec leftBottomCount smallblind : Int) :
    Option FileDeal :=
  match file with
  | none => some ⟨allCard, allCard, drawSec, leftBottomCount⟩
  | some jv => do
      let available ← isAvailable reader jv
      if !available then
        some ⟨allCard, allCard, drawSec, leftBottomCount⟩
      else
        let listed ← isBlindListed reader atoi64 jv smallblind
        if !listed then
          some ⟨allCard, allCard, drawSec, leftBottomCount⟩
        else
          let drawSec ← readInt reader jv "draw_sec" drawSec
          let leftBottomCount ← readInt reader jv "left_count" leftBottomCount
          dealTaken drawSec leftBottomCount
            (takeFile (handTexts reader jv) (bottomTexts reader jv) allCard)

/-! ## The cards named one after the other -/

abbrev named (texts : List (List Byte)) : List PokerCard :=
  texts.map parseString

inductive Takes (entries : List (Option (List Byte)))
    (allCard : List PokerCard) : Taking (List PokerCard) → Prop
  | taken (texts : List (List Byte)) (heq : entries = texts.map some)
      (hsub : (named texts).Subperm allCard) :
      Takes entries allCard (.taken (named texts) (allCard.diff (named texts)))
  | cardsError (before : List (List Byte)) (text : List Byte)
      (after : List (Option (List Byte)))
      (heq : entries = before.map some ++ some text :: after)
      (hsub : (named before).Subperm allCard)
      (hmissing : parseString text ∉ allCard.diff (named before)) :
      Takes entries allCard (.cardsError (allCard.diff (named before)))
  | threw (before : List (List Byte)) (after : List (Option (List Byte)))
      (heq : entries = before.map some ++ none :: after)
      (hsub : (named before).Subperm allCard) : Takes entries allCard .threw

theorem subperm_cons_erase {pc : PokerCard} {cards allCard : List PokerCard}
    (hmem : pc ∈ allCard) (h : cards.Subperm (allCard.erase pc)) :
    (pc :: cards).Subperm allCard :=
  ((List.subperm_cons pc).mpr h).trans
    (List.perm_cons_erase hmem).symm.subperm

theorem Takes.cons {text : List Byte} {rest : List (Option (List Byte))}
    {allCard : List PokerCard} {t : Taking (List PokerCard)}
    (hmem : parseString text ∈ allCard)
    (h : Takes rest (allCard.erase (parseString text)) t) :
    Takes (some text :: rest) allCard (t.map (parseString text :: ·)) := by
  cases h with
  | taken texts heq hsub =>
      have hall := @Takes.taken _ allCard (text :: texts)
        (congrArg (some text :: ·) heq) (subperm_cons_erase hmem hsub)
      rwa [named, List.map_cons, List.diff_cons] at hall
  | cardsError before text' after heq hsub hmissing =>
      have hall := @Takes.cardsError _ allCard (text :: before) text' after
        (congrArg (some text :: ·) heq) (subperm_cons_erase hmem hsub)
      rw [named, List.map_cons, List.diff_cons] at hall
      exact hall hmissing
  | threw before after heq hsub =>
      exact .threw (text :: before) after (congrArg (some text :: ·) heq)
        (subperm_cons_erase hmem hsub)

theorem takeCards_takes (entries : List (Option (List Byte)))
    (allCard : List PokerCard) :
    Takes entries allCard (takeCards entries allCard) := by
  induction entries generalizing allCard with
  | nil => exact .taken [] rfl List.nil_subperm
  | cons entry rest ih =>
      cases entry with
      | none => exact .threw [] rest rfl List.nil_subperm
      | some text =>
          rw [takeCards]
          by_cases hmem : parseString text ∈ allCard
          · simp only [hmem, if_true]
            exact (ih (allCard.erase (parseString text))).cons hmem
          · simp only [hmem, if_false]
            exact .cardsError [] text rest rfl List.nil_subperm hmem

namespace Taking

variable {α β γ : Type}

theorem bind_map (t : Taking α) (f : α → β)
    (g : β → List PokerCard → Taking γ) :
    (t.map f).bind g = t.bind fun cards allCard => g (f cards) allCard := by
  cases t <;> rfl

theorem map_bind (t : Taking α) (f : α → List PokerCard → Taking β)
    (g : β → γ) :
    (t.bind f).map g =
      t.bind fun cards allCard => (f cards allCard).map g := by
  cases t <;> rfl

theorem map_map (t : Taking α) (f : α → β) (g : β → γ) :
    (t.map f).map g = t.map fun cards => g (f cards) := by
  cases t <;> rfl

end Taking

theorem takeCards_append (first second : List (Option (List Byte)))
    (allCard : List PokerCard) :
    takeCards (first ++ second) allCard =
      (takeCards first allCard).bind fun cards allCard =>
        (takeCards second allCard).map (cards ++ ·) := by
  induction first generalizing allCard with
  | nil =>
      simp only [List.nil_append, takeCards, Taking.bind]
      cases takeCards second allCard <;> rfl
  | cons entry rest ih =>
      cases entry with
      | none => rfl
      | some text =>
          simp only [List.cons_append, takeCards]
          split
          · rw [ih, Taking.bind_map, Taking.map_bind]
            congr 1
            funext cards allCard
            rw [Taking.map_map]
            rfl
          · rfl

theorem takeHands_flatten (texts : List (List (Option (List Byte))))
    (allCard : List PokerCard) :
    (takeHands texts allCard).map List.flatten =
      takeCards texts.flatten allCard := by
  induction texts generalizing allCard with
  | nil => rfl
  | cons first rest ih =>
      rw [List.flatten_cons, takeCards_append, takeHands, Taking.map_bind]
      congr 1
      funext hand allCard
      rw [← ih, Taking.map_map, Taking.map_map]
      rfl

theorem takeCards_length {entries : List (Option (List Byte))}
    {allCard cards rest : List PokerCard}
    (h : takeCards entries allCard = .taken cards rest) :
    cards.length = entries.length := by
  have htakes := takeCards_takes entries allCard
  rw [h] at htakes
  cases htakes with
  | taken texts heq hsub => simp [heq]

theorem takeHands_length {texts : List (List (Option (List Byte)))}
    {allCard rest : List PokerCard} {hands : List (List PokerCard)}
    (h : takeHands texts allCard = .taken hands rest) :
    hands.map List.length = texts.map List.length := by
  induction texts generalizing allCard rest hands with
  | nil =>
      cases h
      rfl
  | cons first texts ih =>
      rw [takeHands] at h
      cases hcards : takeCards first allCard with
      | threw => simp [hcards, Taking.bind] at h
      | cardsError => simp [hcards, Taking.bind] at h
      | taken hand allCard₁ =>
          simp only [hcards, Taking.bind] at h
          cases hhands : takeHands texts allCard₁ with
          | threw => simp [hhands, Taking.map, Taking.bind] at h
          | cardsError => simp [hhands, Taking.map, Taking.bind] at h
          | taken hands' allCard₂ =>
              simp only [hhands, Taking.map, Taking.bind] at h
              cases h
              simp [takeCards_length hcards, ih hhands]

/-! ## Filling the hands up -/

theorem fillHand_some {count : Nat} {hand allCard : List PokerCard}
    (hlen : hand.length ≤ count)
    (henough : count ≤ hand.length + allCard.length) :
    ∃ vecCard rest, fillHand count hand allCard = some (vecCard, rest) ∧
      vecCard ++ rest = hand ++ allCard ∧ vecCard.length = count := by
  induction count generalizing hand allCard with
  | zero =>
      obtain rfl : hand = [] := List.eq_nil_of_length_eq_zero (by omega)
      exact ⟨[], allCard, rfl, rfl, rfl⟩
  | succ count ih =>
      cases hand with
      | cons card hand =>
          simp only [List.length_cons] at hlen henough
          obtain ⟨vecCard, rest, hfill, heq, hcount⟩ :=
            @ih hand allCard (by omega) (by omega)
          exact ⟨card :: vecCard, rest, by simp [fillHand, hfill],
            by simp [heq], by simp [hcount]⟩
      | nil =>
          cases allCard with
          | nil => simp at henough
          | cons card allCard =>
              simp only [List.length_nil, List.length_cons] at henough
              obtain ⟨vecCard, rest, hfill, heq, hcount⟩ :=
                @ih [] allCard (by simp) (by simp; omega)
              exact ⟨card :: vecCard, rest, by simp [fillHand, hfill],
                by simp [heq], by simp [hcount]⟩

theorem fillHand_none {count : Nat} {hand allCard : List PokerCard}
    (hshort : hand.length + allCard.length < count) :
    fillHand count hand allCard = none := by
  induction count generalizing hand allCard with
  | zero => omega
  | succ count ih =>
      cases hand with
      | cons card hand =>
          simp only [List.length_cons] at hshort
          rw [fillHand, ih (by omega)]
          rfl
      | nil =>
          cases allCard with
          | nil => rfl
          | cons card allCard =>
              simp only [List.length_nil, List.length_cons] at hshort
              rw [fillHand, ih (by simp; omega)]
              rfl

theorem fillHands_some {hands : List (List PokerCard)}
    {allCard : List PokerCard}
    (hlen : ∀ hand ∈ hands, hand.length ≤ CardDealer.HAND_CARD_COUNT)
    (henough : CardDealer.HAND_CARD_COUNT * hands.length ≤
      hands.flatten.length + allCard.length) :
    ∃ vecCard rest, fillHands hands allCard = some (vecCard, rest) ∧
      (vecCard ++ rest).Perm (hands.flatten ++ allCard) := by
  induction hands generalizing allCard with
  | nil => exact ⟨[], allCard, rfl, List.Perm.refl _⟩
  | cons hand hands ih =>
      obtain ⟨hhand, hhands⟩ := List.forall_mem_cons.mp hlen
      have hsum : hands.flatten.length ≤
          CardDealer.HAND_CARD_COUNT * hands.length := by
        rw [List.length_flatten]
        refine (List.sum_le_card_nsmul _ CardDealer.HAND_CARD_COUNT ?_).trans
          (by simp [Nat.mul_comm])
        simpa using hhands
      rw [List.flatten_cons, List.length_append, List.length_cons,
        Nat.mul_succ] at henough
      obtain ⟨vecCard, rest, hfill, heq, hcount⟩ :=
        @fillHand_some _ hand allCard hhand (by omega)
      have hsize := congrArg List.length heq
      rw [List.length_append, List.length_append] at hsize
      obtain ⟨vecCards, rest', hfills, hperm⟩ :=
        @ih rest hhands (by omega)
      refine ⟨vecCard ++ vecCards, rest', by simp [fillHands, hfill, hfills],
        ?_⟩
      have hback := List.perm_append_comm_assoc vecCard hands.flatten rest
      have hfront := List.perm_append_comm_assoc hands.flatten hand allCard
      rw [heq] at hback
      rw [List.append_assoc, List.flatten_cons, List.append_assoc]
      exact (hperm.append_left vecCard).trans (hback.trans hfront)

theorem fillHands_none {hands : List (List PokerCard)}
    {allCard : List PokerCard}
    (hlen : ∀ hand ∈ hands, hand.length ≤ CardDealer.HAND_CARD_COUNT)
    (hshort : hands.flatten.length + allCard.length <
      CardDealer.HAND_CARD_COUNT * hands.length) :
    fillHands hands allCard = none := by
  induction hands generalizing allCard with
  | nil => simp at hshort
  | cons hand hands ih =>
      obtain ⟨hhand, hhands⟩ := List.forall_mem_cons.mp hlen
      rw [List.flatten_cons, List.length_append, List.length_cons,
        Nat.mul_succ] at hshort
      by_cases henough :
          CardDealer.HAND_CARD_COUNT ≤ hand.length + allCard.length
      · obtain ⟨vecCard, rest, hfill, heq, hcount⟩ :=
          @fillHand_some _ hand allCard hhand henough
        have hsize := congrArg List.length heq
        rw [List.length_append, List.length_append] at hsize
        have hnone := @ih rest hhands (by omega)
        simp [fillHands, hfill, hnone]
      · rw [fillHands, fillHand_none (by omega)]
        rfl

/-! ## When the deck is conserved -/

theorem takeFile_flatten (hands : List (List (Option (List Byte))))
    (bottom : List (Option (List Byte))) (allCard : List PokerCard) :
    (takeFile hands bottom allCard).map
        (fun cards => cards.1.flatten ++ cards.2) =
      takeCards (hands.flatten ++ bottom) allCard := by
  rw [takeCards_append, ← takeHands_flatten, takeFile, Taking.map_bind,
    Taking.bind_map]
  congr 1
  funext vecHandCard allCard
  rw [Taking.map_map]

theorem takeFile_length {hands : List (List (Option (List Byte)))}
    {bottom : List (Option (List Byte))} {allCard rest : List PokerCard}
    {vecHandCard : List (List PokerCard)} {bottomCard : List PokerCard}
    (h : takeFile hands bottom allCard =
      .taken (vecHandCard, bottomCard) rest) :
    vecHandCard.map List.length = hands.map List.length ∧
      bottomCard.length = bottom.length := by
  rw [takeFile] at h
  cases hhands : takeHands hands allCard with
  | threw => simp [hhands, Taking.bind] at h
  | cardsError => simp [hhands, Taking.bind] at h
  | taken vecHandCard' allCard₁ =>
      simp only [hhands, Taking.bind] at h
      cases hbottom : takeCards bottom allCard₁ with
      | threw => simp [hbottom, Taking.map, Taking.bind] at h
      | cardsError => simp [hbottom, Taking.map, Taking.bind] at h
      | taken bottomCard' allCard₂ =>
          simp only [hbottom, Taking.map, Taking.bind] at h
          cases h
          exact ⟨takeHands_length hhands, takeCards_length hbottom⟩

def DealsDeck (result : Option FileDeal) : Prop :=
  ∃ deal, result = some deal ∧ deal.vecCard.Perm initCards

/-- The first card to be read is not in the deck. -/
def NothingTaken (hands : List (List (Option (List Byte))))
    (bottom : List (Option (List Byte))) : Prop :=
  ∃ text rest, hands.flatten ++ bottom = some text :: rest ∧
    parseString text ∉ initCards

def AllTaken (hands : List (List (Option (List Byte))))
    (bottom : List (Option (List Byte))) : Prop :=
  (∃ texts, hands.flatten ++ bottom = texts.map some ∧
    FromDeck (named texts)) ∧
  CardDealer.HAND_CARD_COUNT * hands.length + bottom.length ≤
    CardDealer.CARD_COUNT

section Deal

variable {hands : List (List (Option (List Byte)))}
  {bottom : List (Option (List Byte))} {allCard : List PokerCard}
  {drawSec leftBottomCount : Int}

theorem not_nothingTaken {text : List Byte}
    {after : List (Option (List Byte))}
    (heq : hands.flatten ++ bottom = some text :: after)
    (hmem : parseString text ∈ initCards) : ¬ NothingTaken hands bottom := by
  rintro ⟨text', rest, heq', hmissing⟩
  rw [heq] at heq'
  obtain ⟨h, -⟩ := List.cons.inj heq'
  exact hmissing (Option.some.inj h ▸ hmem)

theorem dealTaken_threw_iff (h : allCard.Perm initCards)
    {before : List (List Byte)} {after : List (Option (List Byte))}
    (heq : hands.flatten ++ bottom = before.map some ++ none :: after)
    (hsub : (named before).Subperm allCard) :
    ¬ (NothingTaken hands bottom ∨ AllTaken hands bottom) := by
  rintro (hnothing | ⟨⟨texts, htexts, -⟩, -⟩)
  · cases before with
    | nil =>
        obtain ⟨text, rest, hfirst, -⟩ := hnothing
        rw [heq] at hfirst
        simp at hfirst
    | cons text before =>
        have hmem : parseString text ∈ initCards :=
          h.subset (hsub.subset List.mem_cons_self)
        exact not_nothingTaken heq hmem hnothing
  · have hnone : none ∈ texts.map some := by
      rw [← htexts, heq]
      simp
    simp at hnone

theorem dealTaken_cardsError_iff (h : allCard.Perm initCards)
    {before : List (List Byte)} {text : List Byte}
    {after : List (Option (List Byte))}
    (heq : hands.flatten ++ bottom = before.map some ++ some text :: after)
    (hsub : (named before).Subperm allCard)
    (hmissing : parseString text ∉ allCard.diff (named before)) :
    (allCard.diff (named before)).Perm initCards ↔
      NothingTaken hands bottom ∨ AllTaken hands bottom := by
  have hnotAll : ¬ AllTaken hands bottom := by
    rintro ⟨⟨texts, htexts, hdeck⟩, -⟩
    rw [heq] at htexts
    obtain ⟨texts₁, texts₂, rfl, hbefore, hrest⟩ :=
      List.map_eq_append_iff.mp htexts.symm
    obtain ⟨text', texts₃, rfl, htext, -⟩ := List.map_eq_cons_iff.mp hrest
    obtain rfl := List.map_injective_iff.mpr (Option.some_injective _) hbefore
    obtain rfl := Option.some.inj htext
    have hcount := List.Subperm.count_le hdeck (parseString text')
    rw [← h.count_eq, named, List.map_append, List.map_cons,
      List.count_append, List.count_cons_self] at hcount
    refine hmissing (List.count_pos_iff.mp ?_)
    rw [List.count_diff, named]
    omega
  rw [or_iff_left hnotAll]
  cases before with
  | nil =>
      have hlost : parseString text ∉ initCards :=
        fun hmem => hmissing (h.symm.subset hmem)
      exact iff_of_true h ⟨text, after, heq, hlost⟩
  | cons first before =>
      have hmem : parseString first ∈ initCards :=
        h.subset (hsub.subset List.mem_cons_self)
      refine iff_of_false (fun hperm => ?_) (not_nothingTaken heq hmem)
      have hsplit := List.subperm_append_diff_self_of_count_le
        fun card _ => hsub.count_le card
      have hlen := hsplit.length_eq
      have hlost := hperm.length_eq
      rw [List.length_append, hlost, h.length_eq, List.length_map,
        List.length_cons] at hlen
      omega

theorem dealTaken_taken_iff (h : allCard.Perm initCards)
    {vecHandCard : List (List PokerCard)} {bottomCard : List PokerCard}
    {texts : List (List Byte)}
    (heq : hands.flatten ++ bottom = texts.map some)
    (hsub : (named texts).Subperm allCard)
    (hflat : vecHandCard.flatten ++ bottomCard = named texts)
    (hnum : vecHandCard.length = hands.length)
    (hlen : ∀ hand ∈ vecHandCard,
      hand.length ≤ CardDealer.HAND_CARD_COUNT)
    (hbottom : bottomCard.length = bottom.length) :
    DealsDeck (dealTaken drawSec leftBottomCount
        (.taken (vecHandCard, bottomCard) (allCard.diff (named texts)))) ↔
      NothingTaken hands bottom ∨ AllTaken hands bottom := by
  have hdeck : FromDeck (named texts) := hsub.trans h.subperm
  have hnothing : ¬ NothingTaken hands bottom := by
    cases texts with
    | nil =>
        rintro ⟨text, rest, hfirst, -⟩
        rw [heq] at hfirst
        simp at hfirst
    | cons text texts =>
        exact not_nothingTaken heq (h.subset (hsub.subset List.mem_cons_self))
  have hsplit := List.subperm_append_diff_self_of_count_le
    fun card _ => hsub.count_le card
  have hsize : vecHandCard.flatten.length + bottomCard.length +
      (allCard.diff (named texts)).length = CardDealer.CARD_COUNT := by
    rw [← List.length_append, hflat, ← List.length_append,
      hsplit.length_eq, h.length_eq, initCards_length]
  rw [or_iff_right hnothing]
  by_cases henough : CardDealer.HAND_CARD_COUNT * hands.length +
      bottom.length ≤ CardDealer.CARD_COUNT
  · obtain ⟨vecCard, rest, hfill, hperm⟩ :=
      @fillHands_some _ (allCard.diff (named texts)) hlen
        (by rw [hnum]; omega)
    refine iff_of_true ⟨_, by rw [dealTaken, hfill]; rfl, ?_⟩
      ⟨⟨texts, heq, hdeck⟩, henough⟩
    have hfront := List.perm_append_comm_assoc vecCard bottomCard rest
    have hback := List.perm_append_comm_assoc bottomCard
      vecHandCard.flatten (allCard.diff (named texts))
    rw [← List.append_assoc vecHandCard.flatten, hflat] at hback
    change (vecCard ++ bottomCard ++ rest).Perm initCards
    rw [List.append_assoc]
    exact (hfront.trans (hperm.append_left bottomCard)).trans
      (hback.trans (hsplit.trans h))
  · refine iff_of_false ?_ fun hall => henough hall.2
    have hnone := @fillHands_none _ (allCard.diff (named texts)) hlen
      (by rw [hnum]; omega)
    rintro ⟨deal, hdeal, -⟩
    rw [dealTaken, hnone] at hdeal
    simp at hdeal

theorem dealTaken_iff (h : allCard.Perm initCards)
    (hhands : ∀ texts ∈ hands, texts.length ≤ CardDealer.HAND_CARD_COUNT) :
    DealsDeck (dealTaken drawSec leftBottomCount
        (takeFile hands bottom allCard)) ↔
      NothingTaken hands bottom ∨ AllTaken hands bottom := by
  have htakes := takeCards_takes (hands.flatten ++ bottom) allCard
  rw [← takeFile_flatten] at htakes
  cases hfile : takeFile hands bottom allCard with
  | threw =>
      rw [hfile] at htakes
      cases htakes with
      | threw before after heq hsub =>
          refine iff_of_false ?_ (dealTaken_threw_iff h heq hsub)
          rintro ⟨deal, hdeal, -⟩
          simp [dealTaken] at hdeal
  | cardsError allCard' =>
      rw [hfile] at htakes
      cases htakes with
      | cardsError before text after heq hsub hmissing =>
          rw [← dealTaken_cardsError_iff h heq hsub hmissing]
          constructor
          · rintro ⟨deal, hdeal, hperm⟩
            cases hdeal
            exact hperm
          · exact fun hperm => ⟨_, rfl, hperm⟩
  | taken cards allCard' =>
      obtain ⟨vecHandCard, bottomCard⟩ := cards
      obtain ⟨hsizes, hbottom⟩ := takeFile_length hfile
      rw [hfile] at htakes
      simp only [Taking.map, Taking.bind] at htakes
      generalize hflat : vecHandCard.flatten ++ bottomCard = flat at htakes
      have hlen : ∀ hand ∈ vecHandCard,
          hand.length ≤ CardDealer.HAND_CARD_COUNT := by
        intro hand hhand
        have hmem := List.mem_map_of_mem (f := List.length) hhand
        rw [hsizes] at hmem
        obtain ⟨texts, htexts, hsize⟩ := List.mem_map.mp hmem
        exact hsize ▸ hhands texts htexts
      have hnum : vecHandCard.length = hands.length := by
        simpa using congrArg List.length hsizes
      cases htakes with
      | taken texts heq hsub =>
          exact dealTaken_taken_iff h heq hsub hflat hnum hlen hbottom

end Deal

section File

variable {Value : Type} (reader : JsonReader Value)
  (atoi64 : List Byte → Int)

theorem handTexts_length (jv : Value) :
    ∀ texts ∈ handTexts reader jv,
      texts.length ≤ CardDealer.HAND_CARD_COUNT := by
  unfold handTexts
  split
  · simp
  · intro texts htexts
    obtain ⟨i, -, rfl⟩ := List.mem_map.mp htexts
    exact List.length_take_le _ _

/--
The file is not used, or its two numbers can be read and either its first card
is unknown or all its cards can be taken and its hands filled up.
-/
def KeepsDeck (file : Option Value)
    (drawSec leftBottomCount smallblind : Int) : Prop :=
  ∀ jv, file = some jv →
    isAvailable reader jv = some false ∨
    (isAvailable reader jv = some true ∧
      isBlindListed reader atoi64 jv smallblind = some false) ∨
    (isAvailable reader jv = some true ∧
      isBlindListed reader atoi64 jv smallblind = some true ∧
      (readInt reader jv "draw_sec" drawSec).isSome ∧
      (readInt reader jv "left_count" leftBottomCount).isSome ∧
      (NothingTaken (handTexts reader jv) (bottomTexts reader jv) ∨
        AllTaken (handTexts reader jv) (bottomTexts reader jv)))

/-- `get_card_from_file` conserves the deck exactly under `KeepsDeck`. -/
theorem getCardFromFile_deals_iff (file : Option Value)
    {allCard : List PokerCard} (h : allCard.Perm initCards)
    (drawSec leftBottomCount smallblind : Int) :
    DealsDeck (getCardFromFile reader atoi64 file allCard drawSec
        leftBottomCount smallblind) ↔
      KeepsDeck reader atoi64 file drawSec leftBottomCount smallblind := by
  have hkept : ∀ drawSec leftBottomCount : Int,
      DealsDeck (some ⟨allCard, allCard, drawSec, leftBottomCount⟩) :=
    fun _ _ => ⟨_, rfl, h⟩
  have hthrew : ¬ DealsDeck none := by
    rintro ⟨deal, hdeal, -⟩
    simp at hdeal
  unfold getCardFromFile KeepsDeck
  cases file with
  | none => exact iff_of_true (hkept _ _) (by simp)
  | some jv =>
      simp only [Option.some.injEq, forall_eq']
      rcases havailable : isAvailable reader jv with _ | _ | _
      · simpa using hthrew
      · simpa using hkept drawSec leftBottomCount
      rcases hlisted : isBlindListed reader atoi64 jv smallblind
        with _ | _ | _
      · simpa using hthrew
      · simpa using hkept drawSec leftBottomCount
      cases hdraw : readInt reader jv "draw_sec" drawSec with
      | none => simpa using hthrew
      | some drawSec' =>
          cases hleft : readInt reader jv "left_count" leftBottomCount with
          | none => simpa using hthrew
          | some leftBottomCount' =>
              simpa using dealTaken_iff h (handTexts_length reader jv)

end File

/-! ## Two files that lose cards -/

inductive JsonNode where
  | null
  | boolean (b : Bool)
  | integer (n : Int)
  | text (t : List Byte)
  | array (items : List JsonNode)
  | object (members : List (String × JsonNode))

namespace JsonNode

def size : JsonNode → Nat
  | array items => items.length
  | object members => members.length
  | _ => 0

def member : JsonNode → String → Option JsonNode
  | null, _ => some null
  | object members, name => some ((members.lookup name).getD null)
  | _, _ => none

def element : JsonNode → Nat → Option JsonNode
  | null, _ => some null
  | array items, i => some (items[i]?.getD null)
  | _, _ => none

def asBool : JsonNode → Option Bool
  | null => some false
  | boolean b => some b
  | integer n => some (n != 0)
  | _ => none

def asInt : JsonNode → Option Int
  | null => some 0
  | boolean b => some (if b then 1 else 0)
  | integer n => some n
  | _ => none

def asString : JsonNode → Option (List Byte)
  | null => some []
  | boolean b => some (ascii (if b then "true" else "false"))
  | integer n => some (ascii (toString n))
  | text t => some t
  | _ => none

def reader : JsonReader JsonNode where
  isNull node := match node with
    | null => true
    | _ => false
  isArray node := match node with
    | array _ => true
    | _ => false
  isInt node := match node with
    | integer n => -2 ^ 31 ≤ n ∧ n < 2 ^ 31
    | _ => false
  empty node := match node with
    | null => true
    | array items => items.isEmpty
    | object members => members.isEmpty
    | _ => false
  size := size
  member := member
  element := element
  asBool := asBool
  asInt := asInt
  asString := asString

def handCardFile (hands : List (List (List Byte)))
    (bottom : List (List Byte)) : JsonNode :=
  object [("available", boolean true),
    ("cards", array (hands.map fun hand => array (hand.map text))),
    ("bottom_cards", array (bottom.map text))]

end JsonNode

/-- `to_string` of a card. -/
def cardText (card : PokerCard) : List Byte :=
  ascii (toString card.color ++ ":" ++ toString card.point)

def lostFile : JsonNode :=
  JsonNode.handCardFile [[ascii "1:2", ascii "9:9"]] []

/-- Five hands without a card, and forty-four cards of the deck at the end. -/
def emptiedFile : JsonNode :=
  JsonNode.handCardFile [[], [], [], [], []]
    ((initCards.take 44).map cardText)

theorem handCardFile_loses_cards :
    ¬ DealsDeck (getCardFromFile JsonNode.reader Lobby.atoll (some lostFile)
      initCards 1200 0 100) ∧
    getCardFromFile JsonNode.reader Lobby.atoll (some emptiedFile) initCards
      1200 0 100 = none := by
  constructor
  · rintro ⟨deal, hdeal, hperm⟩
    have hlost : (getCardFromFile JsonNode.reader Lobby.atoll
        (some lostFile) initCards 1200 0 100).map
          (fun deal => deal.vecCard.length) = some 107 := by
      decide +kernel
    rw [hdeal, Option.map_some, hperm.length_eq, initCards_length] at hlost
    simp at hlost
  · decide +kernel

def servedFile : JsonNode :=
  JsonNode.handCardFile [[ascii "1:2", ascii "1:2"]] [ascii "0:15"]

theorem getCardFromFile_deals_sample :
    DealsDeck (getCardFromFile JsonNode.reader Lobby.atoll (some servedFile)
      initCards 1200 0 100) := by
  refine (getCardFromFile_deals_iff JsonNode.reader Lobby.atoll
    (some servedFile) (List.Perm.refl initCards) 1200 0 100).mpr ?_
  intro jv hjv
  obtain rfl := Option.some.inj hjv
  refine Or.inr (Or.inr ⟨by decide +kernel, by decide +kernel,
    by decide +kernel, by decide +kernel, Or.inr ⟨⟨[ascii "1:2",
      ascii "1:2", ascii "0:15"], by decide +kernel, by decide +kernel⟩,
    by decide +kernel⟩⟩)

end StarsGaming.Desk
