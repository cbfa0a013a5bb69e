import Mathlib.Data.List.Nodup

/-!
# Hash maps as lists of entries

The entries stand in the order an iterator meets them.  An iterator is the key
of the entry it stands on; it can be advanced only while that entry is there.
Erasing an entry leaves the others in their order.  What the entries stand for
is kept in a list that only grows, at fixed positions.
-/

namespace StarsGaming.Foundation

variable {κ β : Type*} [DecidableEq κ]

def entriesAfter (k : κ) : List (κ × β) → Option (List (κ × β))
  | [] => none
  | e :: rest => if e.1 = k then some rest else entriesAfter k rest

def eraseKey (k : κ) (entries : List (κ × β)) : List (κ × β) :=
  entries.filter fun e => e.1 ≠ k

/-- `insert` leaves an entry that is already there. -/
def insertNew (k : κ) (b : β) (entries : List (κ × β)) : List (κ × β) :=
  if k ∈ entries.map Prod.fst then entries else entries ++ [(k, b)]

def assign (k : κ) (b : β) (entries : List (κ × β)) : List (κ × β) :=
  eraseKey k entries ++ [(k, b)]

/-! ## Iterators -/

theorem entriesAfter_append {k : κ} {b : β} {before rest : List (κ × β)}
    (h : k ∉ before.map Prod.fst) :
    entriesAfter k (before ++ (k, b) :: rest) = some rest := by
  induction before with
  | nil => simp [entriesAfter]
  | cons e before ih =>
      rw [List.map_cons, List.mem_cons, not_or] at h
      rw [List.cons_append, entriesAfter, if_neg (Ne.symm h.1)]
      exact ih h.2

theorem lookup_append {k : κ} {b : β} {before rest : List (κ × β)}
    (h : k ∉ before.map Prod.fst) :
    (before ++ (k, b) :: rest).lookup k = some b := by
  have hnone : before.lookup k = none := by
    rw [List.lookup_eq_none_iff]
    intro e he
    rw [bne_iff_ne]
    rintro rfl
    exact h (List.mem_map_of_mem he)
  rw [List.lookup_append, hnone, List.lookup_cons_self]
  rfl

theorem entriesAfter_eraseKey (k : κ) (entries : List (κ × β)) :
    entriesAfter k (eraseKey k entries) = none := by
  induction entries with
  | nil => rfl
  | cons e rest ih =>
      by_cases h : e.1 = k
      · rw [eraseKey, List.filter_cons_of_neg (by simpa using h)]
        exact ih
      · rw [eraseKey, List.filter_cons_of_pos (by simpa using h),
          entriesAfter, if_neg h]
        exact ih

theorem mem_eraseKey {k : κ} {entries : List (κ × β)} {e : κ × β} :
    e ∈ eraseKey k entries ↔ e ∈ entries ∧ e.1 ≠ k := by
  simp [eraseKey]

theorem eraseKey_of_notMem {k : κ} {entries : List (κ × β)}
    (h : k ∉ entries.map Prod.fst) : eraseKey k entries = entries := by
  apply List.filter_eq_self.mpr
  intro e he
  rw [decide_eq_true_eq]
  rintro rfl
  exact h (List.mem_map_of_mem he)

omit [DecidableEq κ] in
theorem notMem_before {k : κ} {b : β} {before rest : List (κ × β)}
    (h : ((before ++ (k, b) :: rest).map Prod.fst).Nodup) :
    k ∉ before.map Prod.fst := by
  rw [List.map_append, List.map_cons, List.nodup_append] at h
  intro hk
  exact h.2.2 k hk k List.mem_cons_self rfl

/-- The entry an iterator stands on goes; those around it stay. -/
theorem eraseKey_append {k : κ} {b : β} {before rest : List (κ × β)}
    (h : ((before ++ (k, b) :: rest).map Prod.fst).Nodup) :
    eraseKey k (before ++ (k, b) :: rest) = before ++ rest := by
  have hbefore := notMem_before h
  rw [List.map_append, List.map_cons, List.nodup_append] at h
  have hrest := (List.nodup_cons.mp h.2.1).1
  have hself : eraseKey k ((k, b) :: rest) = eraseKey k rest := by
    simp [eraseKey]
  rw [eraseKey, List.filter_append]
  change eraseKey k before ++ eraseKey k ((k, b) :: rest) = _
  rw [eraseKey_of_notMem hbefore, hself, eraseKey_of_notMem hrest]

theorem mem_insertNew {k : κ} {b : β} {entries : List (κ × β)}
    {e : κ × β} (h : e ∈ insertNew k b entries) :
    e ∈ entries ∨ e = (k, b) := by
  rw [insertNew] at h
  split_ifs at h
  · exact .inl h
  · rcases List.mem_append.mp h with hold | hnew
    · exact .inl hold
    · exact .inr (List.mem_singleton.mp hnew)

theorem nodup_insertNew {k : κ} {b : β} {entries : List (κ × β)}
    (h : (entries.map Prod.fst).Nodup) :
    ((insertNew k b entries).map Prod.fst).Nodup := by
  rw [insertNew]
  split_ifs with hk
  · exact h
  · rw [List.map_append, List.map_singleton]
    exact h.append (List.nodup_singleton k)
      (List.disjoint_singleton.mpr hk)

theorem keys_insertNew {γ : Type*} {k : κ} {b : β} {c : γ}
    {entries : List (κ × β)} {others : List (κ × γ)}
    (h : entries.map Prod.fst = others.map Prod.fst) :
    (insertNew k b entries).map Prod.fst =
      (insertNew k c others).map Prod.fst := by
  rw [insertNew, insertNew, h]
  split_ifs
  · exact h
  · rw [List.map_append, List.map_append, h]
    rfl

theorem lookup_insertNew [BEq κ] [LawfulBEq κ] (k : κ) (b : β)
    (entries : List (κ × β)) (a : κ) :
    (insertNew k b entries).lookup a = (entries ++ [(k, b)]).lookup a := by
  rw [insertNew]
  split_ifs with hk
  · rw [List.lookup_append]
    cases hold : entries.lookup a with
    | some old => rfl
    | none =>
        rw [Option.none_or, eq_comm, List.lookup_eq_none_iff]
        intro e he
        rw [List.mem_singleton.mp he, bne_iff_ne]
        rintro rfl
        obtain ⟨e', he', hkey⟩ := List.mem_map.mp hk
        have hne := List.lookup_eq_none_iff.mp hold e' he'
        rw [bne_iff_ne] at hne
        exact hne hkey.symm
  · rfl

theorem lookup_eraseKey [BEq κ] [LawfulBEq κ] (k : κ)
    (entries : List (κ × β)) (a : κ) :
    (eraseKey k entries).lookup a =
      if a = k then none else entries.lookup a := by
  induction entries with
  | nil => simp [eraseKey]
  | cons e rest ih =>
      by_cases he : e.1 = k
      · rw [eraseKey, List.filter_cons_of_neg (by simpa using he)]
        change (eraseKey k rest).lookup a = _
        rw [ih]
        split_ifs with ha
        · rfl
        · have hbeq : (a == e.1) = false := by simpa [he] using ha
          rw [List.lookup_cons, hbeq]
      · rw [eraseKey, List.filter_cons_of_pos (by simpa using he)]
        change (e :: eraseKey k rest).lookup a = _
        rw [List.lookup_cons, List.lookup_cons, ih]
        cases hbeq : a == e.1 with
        | true =>
            have ha : a ≠ k := eq_of_beq hbeq ▸ he
            dsimp only
            rw [if_neg ha]
        | false => rfl

theorem lookup_assign [BEq κ] [LawfulBEq κ] (k : κ) (b : β)
    (entries : List (κ × β)) (a : κ) :
    (assign k b entries).lookup a =
      if a = k then some b else entries.lookup a := by
  rw [assign, List.lookup_append, lookup_eraseKey]
  split_ifs with ha
  · rw [ha, List.lookup_cons_self, Option.none_or]
  · have hbeq : (a == k) = false := by simpa using ha
    rw [List.lookup_cons, hbeq, List.lookup_nil, Option.or_none]

omit [DecidableEq κ] in
theorem lookup_map_snd {γ : Type*} [BEq κ] (f : β → γ)
    (entries : List (κ × β)) (a : κ) :
    (entries.map fun e => (e.1, f e.2)).lookup a =
      (entries.lookup a).map f := by
  induction entries with
  | nil => rfl
  | cons e rest ih =>
      rw [List.map_cons, List.lookup_cons, List.lookup_cons, ih]
      cases a == e.1 <;> rfl

theorem nodup_eraseKey {k : κ} {entries : List (κ × β)}
    (h : (entries.map Prod.fst).Nodup) :
    ((eraseKey k entries).map Prod.fst).Nodup :=
  (List.filter_sublist.map Prod.fst).nodup h

/-! ## Positions -/

section Positions

variable {α : Type*}

theorem eq_or_of_getElem?_set {l : List α} {i j : Nat}
    {a b : α} (h : (l.set i a)[j]? = some b) :
    (j = i ∧ b = a) ∨ (j ≠ i ∧ l[j]? = some b) := by
  by_cases hj : j = i
  · subst hj
    rw [List.getElem?_set_self'] at h
    left
    refine ⟨rfl, ?_⟩
    cases hl : l[j]? with
    | none =>
        rw [hl] at h
        cases h
    | some old =>
        rw [hl] at h
        cases h
        rfl
  · right
    rw [List.getElem?_set_ne (Ne.symm hj)] at h
    exact ⟨hj, h⟩

theorem eq_or_of_getElem?_concat {l : List α} {j : Nat}
    {a b : α} (h : (l ++ [a])[j]? = some b) :
    (j = l.length ∧ b = a) ∨ l[j]? = some b := by
  rw [List.getElem?_append] at h
  split_ifs at h with hlt
  · exact .inr h
  · left
    obtain ⟨hlt', hget⟩ := List.getElem?_eq_some_iff.mp h
    rw [List.length_singleton] at hlt'
    refine ⟨by omega, ?_⟩
    exact (List.mem_singleton.mp (List.mem_of_getElem? h))

theorem getElem?_concat (l : List α) (a : α) (i : Nat) :
    (l ++ [a])[i]? = if i = l.length then some a else l[i]? := by
  split_ifs with hi
  · rw [hi, List.getElem?_concat_length]
  · rcases Nat.lt_or_gt_of_ne hi with hlt | hgt
    · rw [List.getElem?_append_left hlt]
    · rw [List.getElem?_eq_none (Nat.le_of_lt hgt), List.getElem?_eq_none]
      rw [List.length_append, List.length_singleton]
      omega

theorem getElem?_append_of_eq_some {l l' : List α} {i : Nat} {a : α}
    (h : l[i]? = some a) : (l ++ l')[i]? = some a := by
  rw [List.getElem?_append_left (List.getElem?_eq_some_iff.mp h).1]
  exact h

end Positions

end StarsGaming.Foundation
