import StarsGaming.Foundation.Numerals

/-!
# Generated accounts

A login process names a new account by the second, its host, its process id and
a counter of 16 bits, written in hexadecimal one behind the other.
-/

namespace StarsGaming.Lobby

open Foundation

structure LoginProcess where
  localIp : BitVec 32
  pid : BitVec 32
  deriving DecidableEq, Repr

/-- What an account is made of; `ss << std::hex` takes an `int` as unsigned. -/
structure ObjectId where
  seconds : Nat
  intIp : BitVec 32
  pid : BitVec 32
  seq : BitVec 32
  deriving DecidableEq, Repr

namespace ObjectId

def numbers (id : ObjectId) : List Nat :=
  [id.seconds, id.intIp.toNat, id.pid.toNat, id.seq.toNat]

def text (id : ObjectId) : List Char :=
  (row 16 id.numbers).map Nat.digitChar

def widths (id : ObjectId) : List Nat :=
  id.numbers.map (width 16)

def process (id : ObjectId) : LoginProcess :=
  ⟨id.intIp, id.pid⟩

end ObjectId

/-- `SystemTool::get_object_id`, in a given second. -/
def getObjectId (seconds : Nat) (intIp pid seq : BitVec 32) : List Char :=
  (ObjectId.mk seconds intIp pid seq).text

/-! ## Runs -/

/-- A call of `LoginModule::generate_account`. -/
structure Call where
  process : LoginProcess
  seconds : Nat
  deriving DecidableEq, Repr

/-- The counter `m_seq` of every process. -/
abbrev Counters := LoginProcess → BitVec 16

def Call.objectId (seqs : Counters) (call : Call) : ObjectId :=
  ⟨call.seconds, call.process.localIp, call.process.pid,
    (seqs call.process).setWidth 32⟩

def generateAccount (seqs : Counters) (call : Call) :
    List Char × Counters :=
  (getObjectId call.seconds call.process.localIp call.process.pid
      ((seqs call.process).setWidth 32),
    Function.update seqs call.process (seqs call.process + 1))

def accounts (seqs : Counters) : List Call → List (List Char)
  | [] => []
  | call :: calls =>
      let (account, seqs) := generateAccount seqs call
      account :: accounts seqs calls

def objectIds (seqs : Counters) : List Call → List ObjectId
  | [] => []
  | call :: calls =>
      call.objectId seqs ::
        objectIds (generateAccount seqs call).2 calls

/-- The clock of a process does not run backwards. -/
def Steady (calls : List Call) : Prop :=
  calls.Pairwise fun first second =>
    first.process = second.process → first.seconds ≤ second.seconds

instance (calls : List Call) : Decidable (Steady calls) :=
  inferInstanceAs (Decidable (List.Pairwise _ _))

/-- No process is called more often within a second than its counter counts. -/
def Counted (calls : List Call) : Prop :=
  ∀ call ∈ calls, calls.count call ≤ 65536

instance (calls : List Call) : Decidable (Counted calls) :=
  inferInstanceAs (Decidable (∀ call ∈ calls, _))

/-! ## Texts -/

theorem digitChar_injOn {first second : Nat} (hfirst : first < 16)
    (hsecond : second < 16)
    (h : Nat.digitChar first = Nat.digitChar second) : first = second := by
  have hall : ∀ i j : Fin 16, Nat.digitChar i = Nat.digitChar j → i = j := by
    decide
  exact congrArg Fin.val (hall ⟨first, hfirst⟩ ⟨second, hsecond⟩ h)

theorem map_digitChar_inj {first second : List Nat}
    (hfirst : ∀ digit ∈ first, digit < 16)
    (hsecond : ∀ digit ∈ second, digit < 16) :
    first.map Nat.digitChar = second.map Nat.digitChar ↔ first = second := by
  constructor
  · intro h
    induction first generalizing second with
    | nil => simpa using h.symm
    | cons digit first ih =>
        cases second with
        | nil => cases h
        | cons digit' second =>
            rw [List.map_cons, List.map_cons, List.cons.injEq] at h
            rw [List.forall_mem_cons] at hfirst hsecond
            rw [digitChar_injOn hfirst.1 hsecond.1 h.1,
              ih hfirst.2 hsecond.2 h.2]
  · intro h
    rw [h]

theorem numbers_injective : Function.Injective ObjectId.numbers := by
  rintro ⟨seconds, intIp, pid, seq⟩ ⟨seconds', intIp', pid', seq'⟩ h
  simp only [ObjectId.numbers, List.cons.injEq, BitVec.toNat_inj,
    and_true] at h
  obtain ⟨rfl, rfl, rfl, rfl⟩ := h
  rfl

theorem text_eq_iff (first second : ObjectId) :
    first.text = second.text ↔
      row 16 first.numbers = row 16 second.numbers :=
  map_digitChar_inj (fun _ => lt_of_mem_row (by decide))
    fun _ => lt_of_mem_row (by decide)

theorem eq_of_text_eq {first second : ObjectId}
    (hwidths : first.widths = second.widths)
    (h : first.text = second.text) : first = second := by
  have hrow := (text_eq_iff first second).mp h
  exact numbers_injective (eq_of_row_eq (by decide) hwidths hrow)

theorem sum_widths_eq {first second : ObjectId}
    (h : first.text = second.text) :
    first.widths.sum = second.widths.sum := by
  have hrow := (text_eq_iff first second).mp h
  have hlength := congrArg List.length hrow
  rwa [length_row (by decide), length_row (by decide)] at hlength

/-! ## Counters -/

theorem counter_self (seqs : Counters) (call : Call) :
    (generateAccount seqs call).2 call.process = seqs call.process + 1 :=
  Function.update_self ..

theorem counter_of_ne (seqs : Counters) {call : Call}
    {process : LoginProcess} (h : process ≠ call.process) :
    (generateAccount seqs call).2 process = seqs process :=
  Function.update_of_ne h ..

theorem accounts_eq_map (seqs : Counters) (calls : List Call) :
    accounts seqs calls = (objectIds seqs calls).map ObjectId.text := by
  induction calls generalizing seqs with
  | nil => rfl
  | cons call calls ih =>
      rw [accounts, objectIds, List.map_cons, ← ih]
      rfl

/--
While the clock shows one second, the counter of a process has been incremented
fewer times than the process is called in that second.
-/
theorem seq_of_mem {seqs : Counters} {calls : List Call}
    {process : LoginProcess} {seconds : Nat} {seq : BitVec 32}
    (hsteady : Steady calls)
    (hfrom : ∀ call ∈ calls, call.process = process →
      seconds ≤ call.seconds)
    (hmem : ⟨seconds, process.localIp, process.pid, seq⟩ ∈
      objectIds seqs calls) :
    ∃ k < calls.count ⟨process, seconds⟩,
      seq = (seqs process + BitVec.ofNat 16 k).setWidth 32 := by
  induction calls generalizing seqs with
  | nil => cases hmem
  | cons call calls ih =>
      obtain ⟨hhead, htail⟩ := List.pairwise_cons.mp hsteady
      rw [List.forall_mem_cons] at hfrom
      rw [objectIds, List.mem_cons] at hmem
      by_cases hprocess : call.process = process
      · subst hprocess
        rcases hmem with heq | hmem
        · rw [Call.objectId, ObjectId.mk.injEq] at heq
          refine ⟨0, ?_, by simpa using heq.2.2.2⟩
          rw [List.count_cons, heq.1]
          simp
        · obtain ⟨k, hk, hseq⟩ := ih htail hfrom.2 hmem
          have hin : ⟨call.process, seconds⟩ ∈ calls :=
            List.count_pos_iff.mp (by omega)
          have hsecond : call.seconds = seconds :=
            le_antisymm (hhead _ hin rfl) (hfrom.1 rfl)
          refine ⟨k + 1, ?_, ?_⟩
          · rw [List.count_cons, ← hsecond]
            rw [← hsecond] at hk
            simpa using hk
          · rw [hseq, counter_self, Nat.add_comm k 1, BitVec.ofNat_add,
              BitVec.add_assoc]
            rfl
      · rcases hmem with heq | hmem
        · rw [Call.objectId, ObjectId.mk.injEq] at heq
          refine absurd ?_ hprocess
          rcases call with ⟨⟨ip, pid⟩, second⟩
          rcases process with ⟨ip', pid'⟩
          rw [LoginProcess.mk.injEq]
          exact ⟨heq.2.1.symm, heq.2.2.1.symm⟩
        · obtain ⟨k, hk, hseq⟩ := ih htail hfrom.2 hmem
          rw [counter_of_ne seqs fun h => hprocess h.symm] at hseq
          refine ⟨k, ?_, hseq⟩
          rw [List.count_cons]
          omega

theorem objectIds_nodup (seqs : Counters) {calls : List Call}
    (hsteady : Steady calls) (hcounted : Counted calls) :
    (objectIds seqs calls).Nodup := by
  induction calls generalizing seqs with
  | nil => exact List.nodup_nil
  | cons call calls ih =>
      obtain ⟨hhead, htail⟩ := List.pairwise_cons.mp hsteady
      have hrest : Counted calls := by
        intro other hmem
        have hcount := hcounted other (List.mem_cons_of_mem _ hmem)
        rw [List.count_cons] at hcount
        omega
      refine List.nodup_cons.mpr ⟨fun hmem => ?_, ih _ htail hrest⟩
      obtain ⟨k, hk, hseq⟩ := seq_of_mem htail
        (fun other hother heq => hhead other hother heq.symm) hmem
      have hcount := hcounted call List.mem_cons_self
      rw [List.count_cons_self] at hcount
      have hlt : k < 65535 := by
        have hcall : calls.count ⟨call.process, call.seconds⟩ =
            calls.count call := rfl
        omega
      rw [counter_self] at hseq
      have hnat := congrArg BitVec.toNat hseq
      have hbound := (seqs call.process).isLt
      have hone : (1 : BitVec 16).toNat = 1 := rfl
      simp only [BitVec.toNat_setWidth, BitVec.toNat_add, hone,
        BitVec.toNat_ofNat] at hnat
      omega

/-! ## Digits that may be read in two ways -/

theorem exists_objectId (id : ObjectId) {digits : List Nat}
    (hlength : digits.length = id.widths.sum)
    (hdigits : ∀ digit ∈ digits, 0 < digit ∧ digit < 16) :
    ∃ other : ObjectId, other.widths = id.widths ∧
      row 16 other.numbers = digits := by
  have hpos : ∀ w ∈ id.widths, 0 < w := by
    intro w hmem
    obtain ⟨n, -, rfl⟩ := List.mem_map.mp hmem
    exact width_pos 16 n
  obtain ⟨ns, hwidths, hrow⟩ := exists_row (by decide) hpos hlength hdigits
  have hfits {n : Nat} {word : BitVec 32}
      (h : width 16 n = width 16 word.toNat) : (BitVec.ofNat 32 n).toNat = n := by
    have hword : width 16 word.toNat ≤ 8 :=
      width_le_of_lt_pow (by decide) word.isLt
    apply Nat.mod_eq_of_lt
    exact lt_pow_of_width_le (b := 16) (w := 8) (by decide) (h.trans_le hword)
  simp only [ObjectId.widths, ObjectId.numbers, List.map_cons, List.map_nil,
    List.map_eq_cons_iff, List.map_eq_nil_iff] at hwidths
  obtain ⟨seconds, _, rfl, hseconds, ip, _, rfl, hip, pid, _, rfl, hpid, seq, _,
    rfl, hseq, rfl⟩ := hwidths
  refine ⟨⟨seconds, .ofNat 32 ip, .ofNat 32 pid, .ofNat 32 seq⟩, ?_⟩
  simp only [ObjectId.widths, ObjectId.numbers, hfits hip, hfits hpid,
    hfits hseq, List.map_cons, List.map_nil, hseconds, hip, hpid, hseq, hrow,
    and_self]

theorem head_intIp {id : ObjectId} {digits : List Nat}
    (h : row 16 id.numbers = digits) :
    digits[width 16 id.seconds]? = (numeral 16 id.intIp.toNat)[0]? := by
  have hpos : 0 < (numeral 16 id.intIp.toNat).length := by
    rw [length_numeral (by decide)]
    exact width_pos 16 _
  rw [← h, row, ObjectId.numbers, List.flatMap_cons,
    ← length_numeral (b := 16) (by decide), List.getElem?_append_right le_rfl,
    Nat.sub_self, List.flatMap_cons, List.getElem?_append_left hpos]

def mixedDigits (total place : Nat) : List Nat :=
  (List.replicate total 1).set place 2

theorem mixedDigits_digits {total place : Nat} :
    ∀ digit ∈ mixedDigits total place, 0 < digit ∧ digit < 16 := by
  intro digit hmem
  rcases List.mem_or_eq_of_mem_set hmem with hone | rfl
  · rw [List.eq_of_mem_replicate hone]
    decide
  · decide

theorem getElem?_mixedDigits {total place other : Nat}
    (hplace : place < total) (hother : other < total)
    (h : (mixedDigits total place)[place]? =
      (mixedDigits total place)[other]?) : place = other := by
  by_contra hne
  rw [mixedDigits, List.getElem?_set_self (by rwa [List.length_replicate]),
    List.getElem?_set_ne hne, List.getElem?_replicate, if_pos hother] at h
  cases h

theorem width_seconds_lt (id : ObjectId) :
    width 16 id.seconds < id.widths.sum := by
  have hip := width_pos 16 id.intIp.toNat
  simp only [ObjectId.widths, ObjectId.numbers, List.map_cons, List.sum_cons]
  omega

/--
Where the widths differ and their sum does not, one text is that of two ids of
two processes.
-/
theorem exists_same_text {first second : ObjectId}
    (hne : first.widths ≠ second.widths)
    (hsum : first.widths.sum = second.widths.sum) :
    ∃ id id' : ObjectId, id.widths = first.widths ∧
      id'.widths = second.widths ∧ id.process ≠ id'.process ∧
      id.text = id'.text := by
  have hlength : (mixedDigits first.widths.sum
      (width 16 first.seconds)).length = first.widths.sum := by
    rw [mixedDigits, List.length_set, List.length_replicate]
  obtain ⟨id, hid, hrow⟩ := exists_objectId first hlength mixedDigits_digits
  obtain ⟨id', hid', hrow'⟩ :=
    exists_objectId second (hlength.trans hsum) mixedDigits_digits
  refine ⟨id, id', hid, hid', fun hprocess => ?_,
    (text_eq_iff id id').mpr (hrow.trans hrow'.symm)⟩
  rw [ObjectId.process, ObjectId.process, LoginProcess.mk.injEq] at hprocess
  have hwidths := hid
  have hwidths' := hid'
  simp only [ObjectId.widths, ObjectId.numbers, List.map_cons, List.map_nil,
    List.cons.injEq, and_true] at hwidths hwidths'
  have hseconds : width 16 first.seconds = width 16 second.seconds := by
    have hlt := width_seconds_lt first
    have hlt' := width_seconds_lt second
    apply getElem?_mixedDigits hlt (hsum ▸ hlt')
    have hhead := head_intIp hrow
    have hhead' := head_intIp hrow'
    rw [hwidths.1] at hhead
    rw [hwidths'.1] at hhead'
    rw [hhead, hhead', hprocess.1]
  -- with the same process only the counter is left to differ in width
  apply hne
  simp only [ObjectId.widths, ObjectId.numbers, List.map_cons, List.map_nil,
    List.sum_cons, List.sum_nil, List.cons.injEq, and_true] at hsum ⊢
  rw [hprocess.1, hprocess.2] at hwidths
  omega

theorem objectIds_pair {first second : ObjectId}
    (hfirst : first.seq.toNat < 65536) (hsecond : second.seq.toNat < 65536)
    (hprocess : first.process ≠ second.process) :
    objectIds (fun process => if process = first.process then
        first.seq.setWidth 16 else second.seq.setWidth 16)
      [⟨first.process, first.seconds⟩, ⟨second.process, second.seconds⟩] =
      [first, second] := by
  have hseq {word : BitVec 32} (h : word.toNat < 65536) :
      (word.setWidth 16).setWidth 32 = word := by
    apply BitVec.eq_of_toNat_eq
    rw [BitVec.toNat_setWidth, BitVec.toNat_setWidth, Nat.mod_eq_of_lt h,
      Nat.mod_eq_of_lt word.isLt]
  rw [objectIds, objectIds, objectIds, Call.objectId, Call.objectId,
    counter_of_ne _ hprocess.symm]
  simp only [if_pos, if_neg hprocess.symm, hseq hfirst, hseq hsecond]
  rfl

theorem seq_lt_of_widths {first second : ObjectId}
    (hwidths : first.widths = second.widths)
    (h : second.seq.toNat < 65536) : first.seq.toNat < 65536 := by
  simp only [ObjectId.widths, ObjectId.numbers, List.map_cons, List.map_nil,
    List.cons.injEq, and_true] at hwidths
  have hwidth : width 16 second.seq.toNat ≤ 4 :=
    width_le_of_lt_pow (by decide) h
  exact lt_pow_of_width_le (b := 16) (w := 4) (by decide)
    (hwidths.2.2.2.trans_le hwidth)

/-- As many digits in all, but not in each of the numbers. -/
def Misaligned (first second : ObjectId) : Prop :=
  first.widths ≠ second.widths ∧ first.widths.sum = second.widths.sum

instance (first second : ObjectId) : Decidable (Misaligned first second) :=
  inferInstanceAs (Decidable (_ ∧ _))

/--
The accounts of a run are all different if no two calls have numbers with as
many digits in all but not in each; and for any two such ways to have digits
there is a run of two calls that have them and the same account.
-/
theorem accounts_unique_of_widths (seqs : Counters) (calls : List Call)
    (hsteady : Steady calls) (hcounted : Counted calls) :
    ((objectIds seqs calls).Pairwise (fun first second =>
        ¬Misaligned first second) → (accounts seqs calls).Nodup) ∧
    ∀ first second : ObjectId, first.seq.toNat < 65536 →
      second.seq.toNat < 65536 → Misaligned first second →
      ∃ (seqs' : Counters) (calls' : List Call),
        Steady calls' ∧ Counted calls' ∧
          (objectIds seqs' calls').map ObjectId.widths =
            [first.widths, second.widths] ∧
          ¬(accounts seqs' calls').Nodup := by
  constructor
  · intro haligned
    have hnodup := objectIds_nodup seqs hsteady hcounted
    rw [accounts_eq_map, List.Nodup, List.pairwise_map]
    refine hnodup.imp₂ (fun first second hne halign heq => ?_) haligned
    by_cases hwidths : first.widths = second.widths
    · exact hne (eq_of_text_eq hwidths heq)
    · exact halign ⟨hwidths, sum_widths_eq heq⟩
  · rintro first second hfirst hsecond ⟨hne, hsum⟩
    obtain ⟨id, id', hid, hid', hprocess, htext⟩ := exists_same_text hne hsum
    have hids := objectIds_pair (seq_lt_of_widths hid hfirst)
      (seq_lt_of_widths hid' hsecond) hprocess
    refine ⟨_, _, ?_, ?_, by rw [hids, List.map_cons, List.map_singleton, hid,
      hid'], ?_⟩
    · refine List.pairwise_pair.mpr fun heq => ?_
      exact absurd heq hprocess
    · intro call _
      have htwo : 2 ≤ 65536 := by decide
      exact List.count_le_length.trans htwo
    · rw [accounts_eq_map, hids, List.map_cons, List.map_singleton, htext]
      simp

def sampleProcess (pid : BitVec 32) : LoginProcess :=
  ⟨0xc0a80001, pid⟩

theorem sample_accounts_unique :
    (accounts (fun _ => 0) [⟨sampleProcess 0x101, 4096⟩,
      ⟨sampleProcess 0x101, 4096⟩, ⟨sampleProcess 0x102, 4096⟩]).Nodup := by
  refine (accounts_unique_of_widths _ _ (by decide) (by decide)).1 ?_
  decide +kernel

/--
The seventeenth account of process `0x101` is the first of process `0x1011` in
the same second.
-/
theorem accounts_collide :
    Steady (List.replicate 17 ⟨sampleProcess 0x101, 4096⟩ ++
        [⟨sampleProcess 0x1011, 4096⟩]) ∧
      Counted (List.replicate 17 ⟨sampleProcess 0x101, 4096⟩ ++
        [⟨sampleProcess 0x1011, 4096⟩]) ∧
      ¬ (accounts (fun _ => 0)
        (List.replicate 17 ⟨sampleProcess 0x101, 4096⟩ ++
          [⟨sampleProcess 0x1011, 4096⟩])).Nodup ∧
      getObjectId 4096 0xc0a80001 0x101 0x10 =
        getObjectId 4096 0xc0a80001 0x1011 0 := by
  decide +kernel

end StarsGaming.Lobby
