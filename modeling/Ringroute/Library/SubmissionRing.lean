import Mathlib.Data.List.Perm.Basic
import Mathlib.Data.Nat.Log
import Mathlib.Tactic.Ring

namespace Library
set_option autoImplicit true

/-- A submission ring: the producer pushes at its own `tail` and compares it with a cached copy of
the consumer's `head`, which only `sync` refreshes. The counters run freely and wrap at `2 ^ 32`. -/
structure SubmissionRing (α : Type u) where
  capacity : Nat
  head : UInt32
  tail : UInt32
  /-- The consumer's own head. -/
  consumed : UInt32
  /-- Entries the consumer can see and has not taken. -/
  published : List α
  /-- Entries pushed since the last `sync`. -/
  pushed : List α

/-- The least power of two that is at least `n`. -/
def nextPowerOfTwo (n : Nat) : Nat := 2 ^ Nat.clog 2 n

theorem le_nextPowerOfTwo (n : Nat) : n ≤ nextPowerOfTwo n :=
  Nat.le_pow_clog Nat.one_lt_two n

theorem nextPowerOfTwo_le {n k : Nat} (h : n ≤ 2 ^ k) : nextPowerOfTwo n ≤ 2 ^ k :=
  Nat.pow_le_pow_right Nat.two_pos (Nat.clog_le_of_le_pow h)

namespace SubmissionRing

def new (entries : Nat) : SubmissionRing α where
  capacity := nextPowerOfTwo entries
  head := 0
  tail := 0
  consumed := 0
  published := []
  pushed := []

/-- How many entries the producer takes the ring to hold. -/
def len (r : SubmissionRing α) : Nat := (r.tail - r.head).toNat

def isFull (r : SubmissionRing α) : Bool := r.len == r.capacity

def push (r : SubmissionRing α) (a : α) : Option (SubmissionRing α) :=
  if r.isFull then none
  else some { r with tail := r.tail + 1, pushed := r.pushed ++ [a] }

/-- Publishes the pushed entries and reloads the cached head. -/
def sync (r : SubmissionRing α) : SubmissionRing α :=
  { r with head := r.consumed, published := r.published ++ r.pushed, pushed := [] }

/-- The consumer takes every published entry. -/
def consume (r : SubmissionRing α) : SubmissionRing α :=
  { r with consumed := r.consumed + UInt32.ofNat r.published.length, published := [] }

def pushAll (r : SubmissionRing α) : List α → Option (SubmissionRing α)
  | [] => some r
  | a :: as => (r.push a).bind (pushAll · as)

/-- Entries pushed and not yet taken, oldest first. -/
def waiting (r : SubmissionRing α) : List α := r.published ++ r.pushed

/-- The counters agree with the entries: `stale` entries were taken since the last `sync`. -/
structure Counts (r : SubmissionRing α) (stale : Nat) : Prop where
  consumed_eq : r.consumed = r.head + UInt32.ofNat stale
  tail_eq : r.tail = r.head + UInt32.ofNat (stale + r.published.length + r.pushed.length)
  fits : stale + r.published.length + r.pushed.length ≤ r.capacity
  capacity_lt : r.capacity < 2 ^ 32

theorem new_counts (h : nextPowerOfTwo n < 2 ^ 32) : (new n : SubmissionRing α).Counts 0 where
  consumed_eq := rfl
  tail_eq := rfl
  fits := Nat.zero_le _
  capacity_lt := h

theorem Counts.len_eq {r : SubmissionRing α} (h : r.Counts stale) :
    r.len = stale + r.published.length + r.pushed.length := by
  have hl := Nat.lt_of_le_of_lt h.fits h.capacity_lt
  rw [len, h.tail_eq, UInt32.add_comm, UInt32.add_sub_cancel]
  exact UInt32.toNat_ofNat_of_lt' hl

/-- A push finds room exactly when the entries seen at the last `sync` and those pushed since
leave some. -/
theorem Counts.push_isSome_iff {r : SubmissionRing α} (h : r.Counts stale) (a : α) :
    (r.push a).isSome ↔ stale + r.published.length + r.pushed.length < r.capacity := by
  have hf := h.fits
  simp only [push, isFull, h.len_eq, beq_iff_eq]
  by_cases hfull : stale + r.published.length + r.pushed.length = r.capacity
  · simp only [if_pos hfull, Option.isSome_none, Bool.false_eq_true, false_iff]
    omega
  · simp only [if_neg hfull, Option.isSome_some, true_iff]
    omega

theorem push_eq_some {r t : SubmissionRing α} (h : r.push a = some t) :
    t = { r with tail := r.tail + 1, pushed := r.pushed ++ [a] } := by
  simp only [push] at h
  split at h
  · cases h
  · exact (Option.some.inj h).symm

theorem Counts.push {r t : SubmissionRing α} (h : r.Counts stale) (hp : r.push a = some t) :
    t.Counts stale := by
  have hroom := (h.push_isSome_iff a).mp (hp ▸ rfl)
  cases push_eq_some hp
  refine ⟨h.consumed_eq, ?_, ?_, h.capacity_lt⟩
  · simp only [h.tail_eq, List.length_append, List.length_singleton, UInt32.ofNat_add,
      UInt32.add_assoc]
    rfl
  · simp only [List.length_append, List.length_singleton]
    omega

theorem Counts.consume {r : SubmissionRing α} (h : r.Counts stale) :
    r.consume.Counts (stale + r.published.length) where
  consumed_eq := by
    simp only [SubmissionRing.consume, h.consumed_eq, UInt32.ofNat_add, UInt32.add_assoc]
  tail_eq := by
    simpa only [SubmissionRing.consume, List.length_nil, Nat.add_zero] using h.tail_eq
  fits := by simpa only [SubmissionRing.consume, List.length_nil, Nat.add_zero] using h.fits
  capacity_lt := h.capacity_lt

theorem Counts.sync {r : SubmissionRing α} (h : r.Counts stale) : r.sync.Counts 0 where
  consumed_eq := by
    simp only [SubmissionRing.sync]
    exact (UInt32.add_zero _).symm
  tail_eq := by
    simp only [SubmissionRing.sync, h.tail_eq, h.consumed_eq, List.length_append,
      List.length_nil, Nat.zero_add, Nat.add_zero, UInt32.ofNat_add, UInt32.add_assoc]
  fits := by
    have hf := h.fits
    simp only [SubmissionRing.sync, List.length_append, List.length_nil]
    omega
  capacity_lt := h.capacity_lt

/-- What pushing a list leaves in the ring. -/
structure Pushed (r t : SubmissionRing α) (as : List α) : Prop where
  capacity_eq : t.capacity = r.capacity
  published_eq : t.published = r.published
  pushed_eq : t.pushed = r.pushed ++ as

theorem pushAll_pushed {r t : SubmissionRing α} (h : r.pushAll as = some t) :
    r.Pushed t as := by
  induction as generalizing r with
  | nil =>
    cases h
    exact ⟨rfl, rfl, (List.append_nil _).symm⟩
  | cons a as ih =>
    obtain ⟨u, hu, ht⟩ := Option.bind_eq_some_iff.mp h
    have hp := ih ht
    have he := push_eq_some hu
    have hpush : u.pushed = r.pushed ++ [a] := by rw [he]
    refine ⟨hp.capacity_eq.trans (by rw [he]), hp.published_eq.trans (by rw [he]), ?_⟩
    rw [hp.pushed_eq, hpush, List.append_assoc, List.singleton_append]

theorem Counts.pushAll {r t : SubmissionRing α} (h : r.Counts stale)
    (hp : r.pushAll as = some t) : t.Counts stale := by
  induction as generalizing r with
  | nil =>
    cases hp
    exact h
  | cons a as ih =>
    obtain ⟨u, hu, ht⟩ := Option.bind_eq_some_iff.mp hp
    exact ih (h.push hu) ht

theorem Counts.pushAll_isSome {r : SubmissionRing α} (h : r.Counts stale) (as : List α)
    (hroom : stale + r.published.length + r.pushed.length + as.length ≤ r.capacity) :
    ∃ t, r.pushAll as = some t := by
  induction as generalizing r with
  | nil => exact ⟨r, rfl⟩
  | cons a as ih =>
    simp only [List.length_cons] at hroom
    obtain ⟨u, hu⟩ := Option.isSome_iff_exists.mp ((h.push_isSome_iff a).mpr (by omega))
    have hcap : u.capacity = r.capacity := by rw [push_eq_some hu]
    have hpub : u.published = r.published := by rw [push_eq_some hu]
    have hpush : u.pushed = r.pushed ++ [a] := by rw [push_eq_some hu]
    obtain ⟨t, ht⟩ := ih (h.push hu) (by
      rw [hcap, hpub, hpush, List.length_append, List.length_singleton]
      omega)
    exact ⟨t, by simp only [SubmissionRing.pushAll, hu, Option.bind_some, ht]⟩

theorem Counts.pushAll_eq_none {r : SubmissionRing α} (h : r.Counts stale) (as : List α)
    (hfull : r.capacity < stale + r.published.length + r.pushed.length + as.length) :
    r.pushAll as = none := by
  cases hp : r.pushAll as with
  | none => rfl
  | some t =>
    have hfits := (h.pushAll hp).fits
    have hpushed := pushAll_pushed hp
    rw [hpushed.published_eq, hpushed.pushed_eq, hpushed.capacity_eq, List.length_append] at hfits
    omega

end SubmissionRing

end Library
