/-
MahoRD/Net/ReplayWindow.lean

The replay window of the datagram cipher (`maho-net/src/udp_gcm.rs`).  The
counters seen so far are kept as bits in 64-bit blocks; when the highest
counter advances past a block boundary, the blocks that lie wholly before the
window are dropped.

The window is not block aligned, so the oldest block kept also holds counters
that have left the window.  `Window.tracks` relates the blocks to the ideal
anti-replay set: every bit stands for an accepted counter, and every accepted
counter still inside the window has its bit.
-/
import MahoRD.Lib.AntiReplay
import MahoRD.Lib.Table
import Mathlib.Data.Nat.Bitwise

namespace MahoRD

/-- Width of the replay window, in counters. -/
def replayWindowSize : UInt64 := 4096

/-- `u64::saturating_sub`. -/
def saturatingSub (a b : UInt64) : UInt64 := if b ≤ a then a - b else 0

structure ReplayWindow where
  highestReceived : UInt64
  receivedAny : Bool
  blocks : Table UInt64 UInt64

namespace ReplayWindow

/-- `ReplayWindow::default()`. -/
def empty : ReplayWindow := ⟨0, false, ∅⟩

/-- The bit of a counter inside its block. -/
def mask (counter : UInt64) : UInt64 := 1 <<< (counter % 64)

def canAccept (w : ReplayWindow) (counter : UInt64) : Bool :=
  if w.receivedAny && counter < w.highestReceived
      && w.highestReceived - counter ≥ replayWindowSize then
    false
  else
    match w.blocks.lookup (counter / 64) with
    | none => true
    | some seen => seen &&& mask counter == 0

/-- The block of the oldest counter inside the window that ends at `highest`. -/
def oldestBlock (highest : UInt64) : UInt64 :=
  saturatingSub highest (saturatingSub replayWindowSize 1) / 64

def record (w : ReplayWindow) (counter : UInt64) : ReplayWindow :=
  let block := counter / 64
  let blocks := w.blocks.insert block ((w.blocks.lookup block).getD 0 ||| mask counter)
  let previousOldestBlock := oldestBlock w.highestReceived
  let advance := !w.receivedAny || counter > w.highestReceived
  let highestReceived := if advance then counter else w.highestReceived
  let receivedAny := if advance then true else w.receivedAny
  let oldest := oldestBlock highestReceived
  -- blocks are dropped only when the window passes a block boundary
  let blocks :=
    if oldest > previousOldestBlock then Table.retain (fun block _ => block ≥ oldest) blocks
    else blocks
  ⟨highestReceived, receivedAny, blocks⟩

/-! ### Bits -/

theorem toNat_mask (c : UInt64) : (mask c).toNat = 2 ^ (c.toNat % 64) := by
  have hlt : c.toNat % 64 < 64 := Nat.mod_lt _ (by omega)
  have hpow : 2 ^ (c.toNat % 64) < 2 ^ 64 := Nat.pow_lt_pow_right (by omega) hlt
  simp only [mask, UInt64.toNat_shiftLeft, UInt64.toNat_mod, UInt64.reduceToNat,
    Nat.one_shiftLeft, Nat.mod_mod]
  exact Nat.mod_eq_of_lt hpow

theorem and_mask_eq_zero (m c : UInt64) :
    m &&& mask c = 0 ↔ m.toNat.testBit (c.toNat % 64) = false := by
  rw [← UInt64.toNat_inj, UInt64.toNat_and, toNat_mask, Nat.and_two_pow]
  cases m.toNat.testBit (c.toNat % 64) <;> simp

theorem testBit_or_mask (m c : UInt64) (i : ℕ) :
    (m ||| mask c).toNat.testBit i = (m.toNat.testBit i || decide (c.toNat % 64 = i)) := by
  rw [UInt64.toNat_or, toNat_mask, Nat.testBit_or, Nat.testBit_two_pow]

/-- The bit of `c` is set. -/
def Seen (w : ReplayWindow) (c : UInt64) : Prop :=
  ∃ m, w.blocks.lookup (c / 64) = some m ∧ m.toNat.testBit (c.toNat % 64) = true

theorem eq_of_block_of_bit {a b : UInt64} (hblock : a / 64 = b / 64)
    (hbit : a.toNat % 64 = b.toNat % 64) : a = b := by
  have h := congrArg UInt64.toNat hblock
  simp only [UInt64.toNat_div, UInt64.reduceToNat] at h
  exact UInt64.toNat_inj.mp (by omega)

/-! ### What one operation does -/

theorem toNat_oldestBlock (h : UInt64) : (oldestBlock h).toNat = (h.toNat - 4095) / 64 := by
  have hwidth : saturatingSub replayWindowSize 1 = 4095 := by decide
  rw [oldestBlock, hwidth, saturatingSub]
  split
  next hle => simp only [UInt64.toNat_div, UInt64.toNat_sub_of_le _ _ hle, UInt64.reduceToNat]
  next hlt =>
    have hlt' : h.toNat < 4095 := by simpa [UInt64.le_iff_toNat_le] using hlt
    rw [Nat.sub_eq_zero_of_le hlt'.le]
    rfl

theorem canAccept_iff (w : ReplayWindow) (c : UInt64) :
    w.canAccept c = true ↔
      ¬ w.Seen c ∧ ¬ (w.receivedAny = true ∧ c.toNat + 4096 ≤ w.highestReceived.toNat) := by
  have hstale : (w.receivedAny && decide (c < w.highestReceived)
        && decide (w.highestReceived - c ≥ replayWindowSize)) = true ↔
      w.receivedAny = true ∧ c.toNat + 4096 ≤ w.highestReceived.toNat := by
    simp only [Bool.and_eq_true, decide_eq_true_eq, and_assoc, ge_iff_le]
    refine and_congr_right fun _ => ?_
    constructor
    · rintro ⟨hlt, hge⟩
      rw [UInt64.lt_iff_toNat_lt] at hlt
      rw [UInt64.le_iff_toNat_le,
        UInt64.toNat_sub_of_le _ _ (UInt64.le_iff_toNat_le.mpr hlt.le)] at hge
      simp only [replayWindowSize, UInt64.reduceToNat] at hge
      omega
    · intro hle
      have hlt : c < w.highestReceived := UInt64.lt_iff_toNat_lt.mpr (by omega)
      refine ⟨hlt, ?_⟩
      rw [UInt64.le_iff_toNat_le,
        UInt64.toNat_sub_of_le _ _ (UInt64.le_iff_toNat_le.mpr (UInt64.lt_iff_toNat_lt.mp hlt).le)]
      simp only [replayWindowSize, UInt64.reduceToNat]
      omega
  unfold canAccept
  split
  next h => simp [hstale.mp h]
  next h =>
    rw [hstale] at h
    rcases hb : w.blocks.lookup (c / 64) with - | m
    · simp [Seen, hb, h]
    · simp [Seen, hb, h, and_mask_eq_zero]

theorem receivedAny_record (w : ReplayWindow) (c : UInt64) :
    (w.record c).receivedAny = true := by
  cases h : w.receivedAny <;> simp [record, h]

theorem highestReceived_record (w : ReplayWindow) (c : UInt64) :
    (w.record c).highestReceived =
      if w.receivedAny = true ∧ c.toNat ≤ w.highestReceived.toNat then w.highestReceived
      else c := by
  cases h : w.receivedAny
  · simp [record, h]
  · by_cases hle : c.toNat ≤ w.highestReceived.toNat
    · have : ¬ w.highestReceived < c := by rw [UInt64.lt_iff_toNat_lt]; omega
      simp [record, h, hle, this]
    · have : w.highestReceived < c := by rw [UInt64.lt_iff_toNat_lt]; omega
      simp [record, h, hle, this]

/-- Where a block comes from: the block of the new counter gets its bit, the
others are those of `w`, and a block is dropped only if it lies before the new
window. -/
theorem lookup_record (w : ReplayWindow) (c b m : UInt64) :
    (w.record c).blocks.lookup b = some m ↔
      (if b = c / 64 then some ((w.blocks.lookup b).getD 0 ||| mask c) else w.blocks.lookup b)
          = some m ∧
        (oldestBlock (w.record c).highestReceived > oldestBlock w.highestReceived →
          oldestBlock (w.record c).highestReceived ≤ b) := by
  have hins : (w.blocks.insert (c / 64) ((w.blocks.lookup (c / 64)).getD 0 ||| mask c)).lookup b
      = if b = c / 64 then some ((w.blocks.lookup b).getD 0 ||| mask c)
        else w.blocks.lookup b := by
    rw [Table.lookup_insert]
    split
    next h => rw [h]
    · rfl
  rw [← hins]
  show (if oldestBlock (w.record c).highestReceived > oldestBlock w.highestReceived then
      Table.retain (fun b _ => b ≥ oldestBlock (w.record c).highestReceived) _ else _).lookup b
    = some m ↔ _
  split
  next h => simp [Table.lookup_retain_eq_some, h]
  next h => simp [h]

variable {c : UInt64} {w : ReplayWindow} {S : Set UInt64}

theorem seen_of_seen_record {x : UInt64} (h : (w.record c).Seen x) :
    w.Seen x ∨ x = c := by
  obtain ⟨m, hm, hbit⟩ := h
  obtain ⟨heq, -⟩ := (lookup_record w c _ m).mp hm
  split at heq
  next hblock =>
    obtain rfl := Option.some.inj heq
    rw [testBit_or_mask, Bool.or_eq_true, decide_eq_true_eq] at hbit
    rcases hbit with hold | hnew
    · rcases hl : w.blocks.lookup (x / 64) with - | m'
      · simp [hl] at hold
      · exact Or.inl ⟨m', hl, by simpa [hl] using hold⟩
    · exact Or.inr (eq_of_block_of_bit hblock hnew.symm)
  · exact Or.inl ⟨m, heq, hbit⟩

theorem seen_record {x : UInt64} (hx : x = c ∨ w.Seen x)
    (hkeep : oldestBlock (w.record c).highestReceived ≤ x / 64) : (w.record c).Seen x := by
  by_cases hblock : x / 64 = c / 64
  · refine ⟨(w.blocks.lookup (x / 64)).getD 0 ||| mask c, ?_, ?_⟩
    · rw [lookup_record, if_pos hblock]
      exact ⟨rfl, fun _ => hkeep⟩
    · rw [testBit_or_mask, Bool.or_eq_true, decide_eq_true_eq]
      rcases hx with rfl | ⟨m, hm, hbit⟩
      · exact Or.inr rfl
      · exact Or.inl (by simpa [hm] using hbit)
  · rcases hx with rfl | ⟨m, hm, hbit⟩
    · exact absurd rfl hblock
    · refine ⟨m, ?_, hbit⟩
      rw [lookup_record, if_neg hblock]
      exact ⟨hm, fun _ => hkeep⟩

/-! ### The invariant -/

/-- `c` is 4096 or more behind `a`. -/
def Behind (c a : UInt64) : Prop := c.toNat + 4096 ≤ a.toNat

/-- The blocks and the accepted set `S` agree, and only blocks of the window
are kept. -/
structure Agrees (w : ReplayWindow) (S : Set UInt64) : Prop where
  any : w.receivedAny = true ↔ S.Nonempty
  highest_mem : w.receivedAny = true → w.highestReceived ∈ S
  le_highest : ∀ a ∈ S, a.toNat ≤ w.highestReceived.toNat
  highest_zero : w.receivedAny = false → w.highestReceived = 0
  seen_mem : ∀ c, w.Seen c → c ∈ S
  mem_seen : ∀ c ∈ S, w.highestReceived.toNat < c.toNat + 4096 → w.Seen c
  block_bounds : ∀ b m, w.blocks.lookup b = some m →
    (w.highestReceived.toNat - 4095) / 64 ≤ b.toNat ∧ b.toNat ≤ w.highestReceived.toNat / 64

theorem agrees_empty : Agrees empty ∅ where
  any := by simp [empty]
  highest_mem := by simp [empty]
  le_highest := by simp
  highest_zero := fun _ => rfl
  seen_mem := by rintro c ⟨m, hm, -⟩; cases hm
  mem_seen := by simp
  block_bounds := by rintro b m hm; cases hm

theorem Agrees.canAccept_iff (h : w.Agrees S) (c : UInt64) :
    w.canAccept c = true ↔ AntiReplay.Accepts Behind S c := by
  rw [ReplayWindow.canAccept_iff]
  constructor
  · rintro ⟨hseen, hstale⟩
    have hnear : ∀ a ∈ S, ¬ Behind c a := by
      intro a ha hbehind
      have hle := h.le_highest a ha
      exact hstale ⟨h.any.mpr ⟨a, ha⟩, hbehind.trans hle⟩
    refine ⟨fun hc => hseen (h.mem_seen c hc ?_), hnear⟩
    have := hnear _ (h.highest_mem (h.any.mpr ⟨c, hc⟩))
    simpa [Behind] using this
  · rintro ⟨hnew, hnear⟩
    exact ⟨fun hs => hnew (h.seen_mem c hs),
      fun ⟨hany, hle⟩ => hnear _ (h.highest_mem hany) hle⟩

theorem highestReceived_le_record (w : ReplayWindow) (c : UInt64)
    (h : w.Agrees S) : w.highestReceived.toNat ≤ (w.record c).highestReceived.toNat ∧
      c.toNat ≤ (w.record c).highestReceived.toNat := by
  rw [highestReceived_record]
  cases hany : w.receivedAny
  · simp [h.highest_zero hany]
  · split <;> simp_all
    omega

theorem Agrees.record (h : w.Agrees S)
    (hc : w.canAccept c = true) : (w.record c).Agrees (insert c S) := by
  obtain ⟨hhigh, hcle⟩ := highestReceived_le_record w c h
  obtain ⟨-, hnear⟩ := h.canAccept_iff c |>.mp hc
  have hhighest : (w.record c).highestReceived = c ∨
      w.receivedAny = true ∧ (w.record c).highestReceived = w.highestReceived := by
    rw [highestReceived_record]
    split
    next hcond => exact Or.inr ⟨hcond.1, rfl⟩
    · exact Or.inl rfl
  -- an accepted counter lies in the new window, so its block is kept
  have hwin : (w.record c).highestReceived.toNat < c.toNat + 4096 := by
    rcases hhighest with heq | ⟨hany, heq⟩
    · rw [heq]; omega
    · have := hnear _ (h.highest_mem hany)
      rw [heq]; simpa [Behind] using this
  refine ⟨by simp [receivedAny_record], fun _ => ?_, ?_, ?_, ?_, ?_, ?_⟩
  · rcases hhighest with heq | ⟨hany, heq⟩
    · rw [heq]; exact Set.mem_insert c S
    · rw [heq]; exact Set.mem_insert_of_mem c (h.highest_mem hany)
  · rintro a (rfl | ha)
    · exact hcle
    · exact (h.le_highest a ha).trans hhigh
  · simp [receivedAny_record]
  · intro x hx
    rcases seen_of_seen_record hx with hold | rfl
    · exact Set.mem_insert_of_mem c (h.seen_mem x hold)
    · exact Set.mem_insert x S
  · intro x hx hxwin
    refine seen_record ?_ ?_
    · rcases hx with rfl | hxS
      · exact Or.inl rfl
      · exact Or.inr (h.mem_seen x hxS (by omega))
    · rw [UInt64.le_iff_toNat_le, toNat_oldestBlock]
      simp only [UInt64.toNat_div, UInt64.reduceToNat]
      omega
  · intro b m hm
    obtain ⟨heq, hkeep⟩ := (lookup_record w c b m).mp hm
    rw [gt_iff_lt, UInt64.lt_iff_toNat_lt, UInt64.le_iff_toNat_le, toNat_oldestBlock,
      toNat_oldestBlock] at hkeep
    split at heq
    next hb =>
      simp only [hb, UInt64.toNat_div, UInt64.reduceToNat]
      omega
    · obtain ⟨hlo, hhi⟩ := h.block_bounds b m heq
      omega

/-! ### The window against the ideal set -/

/-- The window as the datagram cipher uses it on authentic counters: test, then
record. -/
def window : AntiReplay.Window ReplayWindow UInt64 := ⟨canAccept, record⟩

/-- **The block-based window simulates the ideal anti-replay set.** -/
theorem tracks : AntiReplay.Tracks window Behind Agrees where
  accept_iff c h := h.canAccept_iff c
  record _ h hc := h.record hc

theorem agrees_feed (cs : List UInt64) :
    (window.feed empty cs).Agrees {c | c ∈ window.accepted empty cs} := by
  have h := tracks.feed agrees_empty cs
  rwa [Set.empty_union] at h

theorem Agrees.size_le (h : w.Agrees S) :
    w.blocks.size ≤ 65 := by
  refine Table.size_le_of_window UInt64.toNat (fun _ _ => UInt64.toNat_inj.mp)
    ((w.highestReceived.toNat - 4095) / 64) 65 fun b m hm => ?_
  obtain ⟨hlo, hhi⟩ := h.block_bounds b m hm
  omega

/-- **The replay window refines the ideal set.**  For every sequence of
authentic counters: the verdicts are those of the ideal window; the next
counter is accepted iff it was not accepted before and is not 4096 or more
behind an accepted one; a counter inside the window is never forgotten; at
most 65 blocks are kept. -/
theorem replayWindow_refines (cs : List UInt64) :
    window.verdicts empty cs = AntiReplay.idealVerdicts Behind ∅ cs ∧
    (∀ c, (window.feed empty cs).canAccept c = true ↔
      c ∉ window.accepted empty cs ∧
        ∀ a ∈ window.accepted empty cs, ¬ c.toNat + 4096 ≤ a.toNat) ∧
    (∀ c ∈ window.accepted empty cs,
      (∀ a ∈ window.accepted empty cs, ¬ c.toNat + 4096 ≤ a.toNat) →
        (window.feed empty cs).Seen c) ∧
    (window.feed empty cs).blocks.size ≤ 65 := by
  have h := agrees_feed cs
  refine ⟨tracks.verdicts_eq_ideal agrees_empty cs, fun c => h.canAccept_iff c, ?_, h.size_le⟩
  intro c hc hnear
  refine h.mem_seen c hc ?_
  have := hnear _ (h.highest_mem (h.any.mpr ⟨c, hc⟩))
  omega

end ReplayWindow
end MahoRD
