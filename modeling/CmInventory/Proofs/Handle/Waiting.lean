import CmInventory.Handle.Status
import CmInventory.Proofs.Time.Elapsed

/-!
# How long a locked handle waits

The rule by which a locked handle may be tried again speaks of whole numbers without bounds (`RetryRule`): the time
that has passed is at least `base · 2 ^ min n 16` after the failed attempt with number `n`. The waiting time itself
is computed with intervals, which are cut off at the greatest one and may be too long for a signed interval. That
makes no difference, because no two instants are so far apart (`HandleStatus.isReadyForRetry_iff`).
-/

namespace CmInventory

/-! ## Waiting times -/

/-- The nanoseconds that a handle waits after the failed attempt with the given number. -/
def exactWait (attempt : UInt32) (base : Interval) : Nat :=
  base.nanos * Nat.pow 2 (min attempt.toNat 16)

theorem exactWait_mono {a b : UInt32} (hattempt : a ≤ b) {short long : Interval}
    (hbase : short.nanos ≤ long.nanos) : exactWait a short ≤ exactWait b long := by
  have hexponent : min a.toNat 16 ≤ min b.toNat 16 := by
    have : a.toNat ≤ b.toNat := hattempt
    omega
  exact Nat.mul_le_mul hbase (Nat.pow_le_pow_right (by decide) hexponent)

theorem nanos_backoff (attempt : UInt32) (base : Interval) :
    (HandleStatus.backoff attempt base).nanos = min (exactWait attempt base) Interval.greatest.nanos :=
  Interval.nanos_ofNanos _

/-- A waiting time that is cut off is too long for a signed interval as well. -/
theorem signed?_backoff (attempt : UInt32) (base : Interval) :
    (HandleStatus.backoff attempt base).signed? =
      if exactWait attempt base ≤ Interval.greatestSigned then some (exactWait attempt base : Int) else none := by
  have hgreatest : Interval.greatestSigned < Interval.greatest.nanos := by decide
  rw [Interval.signed?, nanos_backoff]
  by_cases hshort : exactWait attempt base ≤ Interval.greatestSigned
  · rw [min_eq_left (by omega), if_pos hshort]
  · rw [if_neg (by omega), if_neg hshort]

/-! ## The rule -/

/-- The rule by which a handle that is locked for a reason may be tried again once some nanoseconds have passed. -/
structure RetryRule (s : HandleStatus) (reason : LockReason) (base : Interval) (passed : Int) : Prop where
  locked : s.lifecycle = .locked
  failed : reason.category = .moduleSyncFailed ∨ reason.category = .moduleUpgradeFailed
  waited : reason.attempt = 0 ∨ (exactWait reason.attempt base : Int) ≤ passed

namespace RetryRule

variable {s : HandleStatus} {reason : LockReason} {base : Interval} {passed : Int}

theorem mono (h : RetryRule s reason base passed) {shorter : Interval} (hbase : shorter.nanos ≤ base.nanos)
    {longer : Int} (hpassed : passed ≤ longer) : RetryRule s reason shorter longer := by
  refine ⟨h.locked, h.failed, h.waited.imp_right fun hwaited => ?_⟩
  have hwait := exactWait_mono (Nat.le_refl reason.attempt.toNat) hbase
  omega

/-- Fewer attempts have not to wait as long, unless none are counted. -/
theorem fewer (h : RetryRule s reason base passed) {attempt : UInt32} (hpos : 1 ≤ attempt)
    (hle : attempt ≤ reason.attempt) : RetryRule s { reason with attempt } base passed := by
  refine ⟨h.locked, h.failed, Or.inr ?_⟩
  have hcounted : reason.attempt ≠ 0 := by
    rintro hzero
    rw [hzero] at hle
    exact absurd (Nat.le_trans hpos hle) (by decide)
  have hwaited := h.waited.resolve_left hcounted
  have hwait := exactWait_mono hle (Nat.le_refl base.nanos)
  change (exactWait attempt base : Int) ≤ passed
  omega

end RetryRule

theorem LockCategory.isRetryable_iff (category : LockCategory) :
    category.isRetryable = true ↔ category = .moduleSyncFailed ∨ category = .moduleUpgradeFailed := by
  cases category <;> decide

namespace HandleStatus

variable {s : HandleStatus} {reason : LockReason} {now : Instant} {base : Interval}

/-- A handle without a reason may be tried again whenever it is locked. -/
theorem isReadyForRetry_of_none (hreason : s.lockReason = none) :
    s.isReadyForRetry now base = true ↔ s.lifecycle = .locked := by
  rw [isReadyForRetry, hreason]
  simp

/-- A handle that is locked for a reason may be tried again by the rule, whatever the instants are. -/
theorem isReadyForRetry_iff (hreason : s.lockReason = some reason) :
    s.isReadyForRetry now base = true ↔ RetryRule s reason base (now.since s.updatedAt) := by
  rw [isReadyForRetry, hreason]
  by_cases hlocked : s.lifecycle = .locked
  case neg =>
    rw [if_pos hlocked]
    exact iff_of_false Bool.false_ne_true fun h => hlocked h.locked
  rw [if_neg (not_not_intro hlocked)]
  cases hretryable : reason.category.isRetryable with
  | false =>
      simp only [hretryable, Bool.not_false, if_true]
      refine iff_of_false Bool.false_ne_true fun h => ?_
      rw [reason.category.isRetryable_iff.2 h.failed] at hretryable
      cases hretryable
  | true =>
      have hfailed := reason.category.isRetryable_iff.1 hretryable
      by_cases hzero : reason.attempt = 0
      · simp only [hretryable, hzero, Bool.not_true, Bool.false_eq_true, if_false, if_true]
        exact iff_of_true trivial ⟨hlocked, hfailed, Or.inl hzero⟩
      · have hrule : RetryRule s reason base (now.since s.updatedAt) ↔
            (exactWait reason.attempt base : Int) ≤ now.since s.updatedAt :=
          ⟨fun h => h.waited.resolve_left hzero, fun h => ⟨hlocked, hfailed, Or.inr h⟩⟩
        rw [hrule]
        simp only [hretryable, hzero, Bool.not_true, Bool.false_eq_true, if_false, signed?_backoff]
        -- What is too long for a signed interval is longer than any two instants are apart.
        have hbound := Instant.since_le_greatestSigned now s.updatedAt
        by_cases hshort : exactWait reason.attempt base ≤ Interval.greatestSigned
        · simp only [if_pos hshort, decide_eq_true_eq]
        · simp only [if_neg hshort]
          exact iff_of_false Bool.false_ne_true (by omega)

theorem lifecycle_of_isReadyForRetry (h : s.isReadyForRetry now base = true) : s.lifecycle = .locked := by
  cases hreason : s.lockReason with
  | none => exact (isReadyForRetry_of_none hreason).1 h
  | some reason => exact ((isReadyForRetry_iff hreason).1 h).locked

/-! ## Exactness -/

/-- Between ordinary instants a handle that is locked for a reason may be tried again exactly if it is locked, the
reason is a failure of its modules, and it has waited for its attempts in whole nanoseconds. So it stays ready as
time goes on, and it is ready as well for a shorter base and for fewer attempts, as long as any are counted. -/
theorem ready_by_exact_rule (hreason : s.lockReason = some reason) (hnow : now.IsOrdinary)
    (hupdated : s.updatedAt.IsOrdinary) (base : Interval) :
    (s.isReadyForRetry now base = true ↔
        s.lifecycle = .locked ∧
          (reason.category = .moduleSyncFailed ∨ reason.category = .moduleUpgradeFailed) ∧
          (reason.attempt = 0 ∨ ((base.nanos * Nat.pow 2 (min reason.attempt.toNat 16) : Nat) : Int) ≤
            now.sinceEpoch - s.updatedAt.sinceEpoch)) ∧
      (∀ later : Instant, later.IsOrdinary → now.sinceEpoch ≤ later.sinceEpoch →
        s.isReadyForRetry now base = true → s.isReadyForRetry later base = true) ∧
      (∀ shorter : Interval, shorter.nanos ≤ base.nanos →
        s.isReadyForRetry now base = true → s.isReadyForRetry now shorter = true) ∧
      ∀ attempt : UInt32, 1 ≤ attempt → attempt ≤ reason.attempt → s.isReadyForRetry now base = true →
        { s with lockReason := some { reason with attempt } }.isReadyForRetry now base = true := by
  rw [isReadyForRetry_iff hreason, Instant.since_eq_sub hnow hupdated]
  refine ⟨?_, ?_, ?_, ?_⟩
  · constructor
    · exact fun h => ⟨h.locked, h.failed, h.waited⟩
    · rintro ⟨hlocked, hfailed, hwaited⟩
      exact ⟨hlocked, hfailed, hwaited⟩
  · intro later hlater hle h
    rw [isReadyForRetry_iff hreason, Instant.since_eq_sub hlater hupdated]
    exact h.mono (Nat.le_refl _) (Int.sub_le_sub_right hle _)
  · intro shorter hle h
    rw [isReadyForRetry_iff hreason, Instant.since_eq_sub hnow hupdated]
    exact h.mono hle (Int.le_refl _)
  · intro attempt hpos hle h
    rw [isReadyForRetry_iff rfl, Instant.since_eq_sub hnow hupdated]
    have hfewer := h.fewer hpos hle
    exact ⟨hfewer.locked, hfewer.failed, hfewer.waited⟩

/-- After a seventeenth failure a handle waits 60 · 65536 seconds, and not a nanosecond less. -/
theorem ready_by_exact_rule_boundary :
    let reason : LockReason := ⟨.moduleSyncFailed, 17, "timeout"⟩
    let s : HandleStatus :=
      { (default : HandleStatus) with lifecycle := .locked, lockReason := some reason, updatedAt := .epoch }
    let due := (Instant.ofFields? 1970 2 15 12 16 0 0).getD default
    let early := (Instant.ofFields? 1970 2 15 12 15 59 999999999).getD default
    s.lockReason = some reason ∧ s.updatedAt.IsOrdinary ∧ due.IsOrdinary ∧ early.IsOrdinary ∧
      s.isReadyForRetry due (.ofSeconds 60) = true ∧ s.isReadyForRetry early (.ofSeconds 60) = false := by
  refine ⟨rfl, by decide, by decide, by decide, ?_, ?_⟩
  · refine (ready_by_exact_rule rfl (by decide) (by decide) _).1.2 ⟨rfl, Or.inl rfl, Or.inr ?_⟩
    decide
  · rw [Bool.eq_false_iff]
    intro hready
    rcases (ready_by_exact_rule rfl (by decide) (by decide) _).1.1 hready with ⟨-, -, hzero | hwaited⟩
    · exact absurd hzero (by decide)
    · exact absurd hwaited (by decide)

end HandleStatus
end CmInventory
