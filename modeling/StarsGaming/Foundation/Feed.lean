import Mathlib.Data.List.Basic
import Mathlib.Tactic.Linarith

/-!
# Readers that ask for a number of items

A feeder is a state that either asks for a number of items or for nothing.
Items arrive in chunks and wait in an inbox; whenever it holds as many as are
asked for they are taken.  How the items are cut into chunks makes no
difference to where the feeder ends.
-/

namespace StarsGaming.Foundation

/-- A rank makes sure that requests for nothing come to an end. -/
structure Feeder (σ α : Type*) where
  want : σ → Option Nat
  take : List α → σ → σ
  weight : Nat
  rank : σ → Nat
  rank_take : ∀ {s n items}, want s = some n → items.length = n →
    rank (take items s) < weight * n + rank s

namespace Feeder

variable {σ α : Type*} (F : Feeder σ α)

theorem rank_step {s : σ} {n : Nat} {inbox : List α}
    (hwant : F.want s = some n) (hn : n ≤ inbox.length) :
    F.weight * (inbox.drop n).length + F.rank (F.take (inbox.take n) s) <
      F.weight * inbox.length + F.rank s := by
  have hlen : (inbox.take n).length = n := List.length_take_of_le hn
  have hrank := F.rank_take hwant hlen
  have hsum : F.weight * (inbox.drop n).length + F.weight * n =
      F.weight * inbox.length := by
    rw [← Nat.mul_add, List.length_drop, Nat.sub_add_cancel hn]
  omega

def drain (s : σ) (inbox : List α) : σ × List α :=
  match _ : F.want s with
  | none => (s, inbox)
  | some n =>
      if _ : n ≤ inbox.length then
        drain (F.take (inbox.take n) s) (inbox.drop n)
      else (s, inbox)
termination_by F.weight * inbox.length + F.rank s
decreasing_by exact F.rank_step ‹_› ‹_›

def feed (c : σ × List α) (chunk : List α) : σ × List α :=
  F.drain c.1 (c.2 ++ chunk)

variable {F}

theorem drain_of_none {s : σ} (inbox : List α) (h : F.want s = none) :
    F.drain s inbox = (s, inbox) := by
  rw [drain]
  split
  next => rfl
  next n hn => rw [h] at hn; cases hn

theorem drain_of_short {s : σ} {n : Nat} {inbox : List α}
    (h : F.want s = some n) (hn : inbox.length < n) :
    F.drain s inbox = (s, inbox) := by
  rw [drain]
  split
  next => rfl
  next m hm =>
    cases h.symm.trans hm
    rw [dif_neg (by omega)]

theorem drain_of_enough {s : σ} {n : Nat} {inbox : List α}
    (h : F.want s = some n) (hn : n ≤ inbox.length) :
    F.drain s inbox =
      F.drain (F.take (inbox.take n) s) (inbox.drop n) := by
  rw [drain]
  split
  next hnone => rw [h] at hnone; cases hnone
  next m hm =>
    cases h.symm.trans hm
    rw [dif_pos hn]

/-- Items that are asked for at once, with others behind them. -/
theorem drain_append_of_want {s : σ} {items : List α} (rest : List α)
    (h : F.want s = some items.length) :
    F.drain s (items ++ rest) = F.drain (F.take items s) rest := by
  rw [drain_of_enough h (by simp)]
  simp

def Waits (F : Feeder σ α) (s : σ) (inbox : List α) : Prop :=
  ∀ n, F.want s = some n → inbox.length < n

theorem Waits.drain {s : σ} {inbox : List α} (h : F.Waits s inbox) :
    F.drain s inbox = (s, inbox) := by
  cases hwant : F.want s with
  | none => exact drain_of_none inbox hwant
  | some n => exact drain_of_short hwant (h n hwant)

theorem drain_induction {motive : σ → List α → Prop}
    (stop : ∀ s inbox, F.Waits s inbox → motive s inbox)
    (more : ∀ s inbox n, F.want s = some n → n ≤ inbox.length →
      motive (F.take (inbox.take n) s) (inbox.drop n) → motive s inbox)
    (s : σ) (inbox : List α) : motive s inbox := by
  induction s, inbox using drain.induct F with
  | case1 s inbox hwant =>
      apply stop
      intro n hn
      cases hwant.symm.trans hn
  | case2 s inbox n hwant hn ih => exact more s inbox n hwant hn ih
  | case3 s inbox n hwant hn =>
      apply stop
      intro m hm
      cases hwant.symm.trans hm
      omega

theorem drain_append (s : σ) (inbox later : List α) :
    F.drain s (inbox ++ later) = F.feed (F.drain s inbox) later := by
  induction s, inbox using drain_induction (F := F) with
  | stop s inbox h => rw [h.drain, feed]
  | more s inbox n hwant hn ih =>
      have hlen : n ≤ (inbox ++ later).length := by
        rw [List.length_append]
        omega
      rw [drain_of_enough hwant hlen, drain_of_enough hwant hn, ← ih,
        List.take_append_of_le_length hn, List.drop_append_of_le_length hn]

/-- Chunks that arrive one after the other are as good as one. -/
theorem foldl_feed (chunks : List (List α)) (s : σ) (inbox : List α) :
    chunks.foldl F.feed (F.drain s inbox) =
      F.drain s (inbox ++ chunks.flatten) := by
  induction chunks generalizing inbox with
  | nil => simp
  | cons chunk chunks ih =>
      rw [List.foldl_cons, ← drain_append, ih, List.flatten_cons,
        List.append_assoc]

/-- On the way through `inbox` the feeder takes `items` in state `t`. -/
inductive Takes (F : Feeder σ α) : σ → List α → σ → List α → Prop where
  | here {s : σ} {inbox : List α} {n : Nat} (hwant : F.want s = some n)
      (hn : n ≤ inbox.length) : Takes F s inbox s (inbox.take n)
  | later {s t : σ} {inbox items : List α} {n : Nat}
      (hwant : F.want s = some n) (hn : n ≤ inbox.length)
      (h : Takes F (F.take (inbox.take n) s) (inbox.drop n) t items) :
      Takes F s inbox t items

theorem Waits.not_takes {s t : σ} {inbox items : List α}
    (h : F.Waits s inbox) : ¬Takes F s inbox t items := by
  intro ht
  cases ht with
  | here hwant hn => exact absurd (h _ hwant) (by omega)
  | later hwant hn _ => exact absurd (h _ hwant) (by omega)

theorem forall_takes {s : σ} {inbox : List α} {n : Nat}
    (hwant : F.want s = some n) (hn : n ≤ inbox.length)
    {p : σ → List α → Prop} :
    (∀ t items, Takes F s inbox t items → p t items) ↔
      p s (inbox.take n) ∧
        ∀ t items, Takes F (F.take (inbox.take n) s) (inbox.drop n) t items →
          p t items := by
  constructor
  · intro h
    exact ⟨h _ _ (.here hwant hn), fun t items ht =>
      h t items (.later hwant hn ht)⟩
  · rintro ⟨hfirst, hlater⟩ t items ht
    cases ht with
    | here hwant' _ =>
        cases hwant.symm.trans hwant'
        exact hfirst
    | later hwant' _ ht =>
        cases hwant.symm.trans hwant'
        exact hlater _ _ ht

end Feeder

end StarsGaming.Foundation
