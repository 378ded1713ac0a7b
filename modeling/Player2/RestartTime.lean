import Player2.FrameTiming
import Player2.OutputCoordinator

/-! # `RestartTime`

The next system time at which playback can start.  `RestartTime` goes through the contexts, asks each
manifestor when a frame queued now would be shown, and keeps the latest answer of all streams and the latest
one of the video streams; neither is before the current time.  If the latest answer is not from a video
stream, it is rounded up to a frame point: a whole number of frame durations of the first video stream after
the latest video answer (`restartTime_eq`). -/

namespace Player2.OutputCoordinator

variable {s : OutputCoordinator}

/-- What `RestartTime` asks for: the current time, and of the manifestor of each stream the time of
`GetNextQueuedManifestationTime` and the surface. -/
structure Manifestors where
  now : UInt64
  nextQueuedManifestationTime : ℕ → UInt64
  surface : ℕ → FrameTiming.Surface

/-- The duration of a frame on a surface, which is two fields unless the surface is progressive. -/
def frameDuration (surface : FrameTiming.Surface) : UInt64 :=
  let duration := (Rational.intDiv 1000000 surface.frameRate).roundedLongLongIntegerPart
  if surface.progressive then duration else 2 * duration

/-- What has been found so far. -/
structure Trawl where
  videoFrameDuration : UInt64
  latestVideoManifestTime : UInt64
  latestManifestTime : UInt64
deriving DecidableEq, Repr

/-- Look at a context. -/
def trawl (m : Manifestors) (u : Trawl) (x : CoordinatorContext) : Trawl where
  videoFrameDuration :=
    -- a duration of one stands for one that is not known
    if x.streamType = .video ∧ u.videoFrameDuration = 1 then frameDuration (m.surface x.id)
    else u.videoFrameDuration
  latestVideoManifestTime :=
    if x.streamType = .video then
      max (m.nextQueuedManifestationTime x.id) u.latestVideoManifestTime
    else u.latestVideoManifestTime
  latestManifestTime := max (m.nextQueuedManifestationTime x.id) u.latestManifestTime

/-- What has been found when all contexts have been looked at. -/
def trawled (s : OutputCoordinator) (m : Manifestors) : Trawl :=
  s.coordinatedContexts.foldl (trawl m) ⟨1, m.now, m.now⟩

/-- The latest time, rounded up to a frame point unless it is from a video stream. -/
def Trawl.restartTime (u : Trawl) : UInt64 :=
  if u.latestManifestTime ≠ u.latestVideoManifestTime then
    u.latestVideoManifestTime +
      (u.latestManifestTime - u.latestVideoManifestTime + u.videoFrameDuration - 1) /
        u.videoFrameDuration * u.videoFrameDuration
  else u.latestManifestTime

/-- `RestartTime`, with the frame duration that it leaves behind. -/
def restart (s : OutputCoordinator) (m : Manifestors) (videoStartImmediate : Bool) : Restart where
  restartTime := (s.trawled m).restartTime
  videoFrameDuration := (s.trawled m).videoFrameDuration
  videoStartImmediate := videoStartImmediate

/-! ### The contexts -/

/-- The times are below `2⁶²` microseconds, and the frames of every video stream last for a time that is
not zero. -/
structure Moderate (s : OutputCoordinator) (m : Manifestors) : Prop where
  now : m.now.toNat < 2 ^ 62
  manifestation : ∀ x ∈ s.coordinatedContexts, (m.nextQueuedManifestationTime x.id).toNat < 2 ^ 62
  playback : ∀ x ∈ s.coordinatedContexts, x.inSynchronizeFn = true →
    x.synchronizingAtPlaybackTime.toNat < 2 ^ 62
  frame : ∀ x ∈ s.coordinatedContexts, x.streamType = .video →
    0 < (frameDuration (m.surface x.id)).toNat ∧ (frameDuration (m.surface x.id)).toNat < 2 ^ 62

/-- What has been found is in order: the duration is one that can be divided by, and the latest time is not
before the latest video time. -/
structure Trawl.InOrder (u : Trawl) : Prop where
  duration_pos : 0 < u.videoFrameDuration.toNat
  duration_lt : u.videoFrameDuration.toNat < 2 ^ 62
  video_le : u.latestVideoManifestTime.toNat ≤ u.latestManifestTime.toNat
  latest_lt : u.latestManifestTime.toNat < 2 ^ 62

theorem toNat_max (a b : UInt64) : (max a b).toNat = max a.toNat b.toNat := by
  have hmax : max a b = if a ≤ b then b else a := rfl
  rw [hmax]
  split
  next h => exact (max_eq_right (UInt64.le_iff_toNat_le.mp h)).symm
  next h => exact (max_eq_left (Nat.le_of_not_le fun h' => h (UInt64.le_iff_toNat_le.mpr h'))).symm

theorem Trawl.InOrder.trawl {m : Manifestors} {u : Trawl} {x : CoordinatorContext} (h : u.InOrder)
    (hx : (m.nextQueuedManifestationTime x.id).toNat < 2 ^ 62)
    (hframe : x.streamType = .video →
      0 < (frameDuration (m.surface x.id)).toNat ∧ (frameDuration (m.surface x.id)).toNat < 2 ^ 62) :
    (OutputCoordinator.trawl m u x).InOrder := by
  have hduration : 0 < (OutputCoordinator.trawl m u x).videoFrameDuration.toNat ∧
      (OutputCoordinator.trawl m u x).videoFrameDuration.toNat < 2 ^ 62 := by
    unfold OutputCoordinator.trawl
    split
    next hvideo => exact hframe hvideo.1
    · exact ⟨h.duration_pos, h.duration_lt⟩
  have hle := h.video_le
  have hlt := h.latest_lt
  refine ⟨hduration.1, hduration.2, ?_, ?_⟩
  · unfold OutputCoordinator.trawl
    dsimp only
    split
    · rw [toNat_max, toNat_max]
      omega
    · rw [toNat_max]
      omega
  · unfold OutputCoordinator.trawl
    rw [toNat_max]
    omega

theorem inOrder_trawled {m : Manifestors} (h : s.Moderate m) : (s.trawled m).InOrder := by
  have hfold : ∀ (l : List CoordinatorContext) (u : Trawl), u.InOrder →
      (∀ x ∈ l, x ∈ s.coordinatedContexts) → (l.foldl (trawl m) u).InOrder := by
    intro l
    induction l with
    | nil => exact fun u hu _ => hu
    | cons x l ih =>
      intro u hu hl
      have hx := hl x List.mem_cons_self
      exact ih _ (hu.trawl (h.manifestation x hx) (h.frame x hx))
        fun y hy => hl y (List.mem_cons_of_mem x hy)
  have hone : 0 < (1 : UInt64).toNat ∧ (1 : UInt64).toNat < 2 ^ 62 := by decide
  exact hfold _ _ ⟨hone.1, hone.2, le_rfl, h.now⟩ fun x hx => hx

/-! ### The result -/

theorem roundUp_spec {duration : ℕ} (h : 0 < duration) (t : ℕ) :
    t ≤ (t + duration - 1) / duration * duration ∧
      (t + duration - 1) / duration * duration ≤ t + duration - 1 := by
  have hdiv := Nat.div_add_mod (t + duration - 1) duration
  have hmod := Nat.mod_lt (t + duration - 1) h
  rw [mul_comm] at hdiv
  omega

theorem restartTime_eq {u : Trawl} (h : u.InOrder) :
    ∃ k, u.restartTime.toNat = u.latestVideoManifestTime.toNat + k * u.videoFrameDuration.toNat ∧
      u.latestManifestTime.toNat ≤ u.restartTime.toNat ∧
      u.restartTime.toNat < u.latestManifestTime.toNat + u.videoFrameDuration.toNat := by
  obtain ⟨hpos, hduration, hle, hlt⟩ := h
  unfold Trawl.restartTime
  split
  · obtain ⟨hup, hdown⟩ := roundUp_spec hpos
      (u.latestManifestTime.toNat - u.latestVideoManifestTime.toNat)
    have hsub : (u.latestManifestTime - u.latestVideoManifestTime).toNat =
        u.latestManifestTime.toNat - u.latestVideoManifestTime.toNat :=
      UInt64.toNat_sub_of_le _ _ (UInt64.le_iff_toNat_le.mpr hle)
    have hsum : (u.latestManifestTime - u.latestVideoManifestTime + u.videoFrameDuration - 1).toNat =
        u.latestManifestTime.toNat - u.latestVideoManifestTime.toNat + u.videoFrameDuration.toNat - 1 := by
      have hadd : (u.latestManifestTime - u.latestVideoManifestTime + u.videoFrameDuration).toNat =
          u.latestManifestTime.toNat - u.latestVideoManifestTime.toNat + u.videoFrameDuration.toNat := by
        rw [UInt64.toNat_add, hsub, Nat.mod_eq_of_lt (by omega)]
      rw [UInt64.toNat_sub_of_le _ _ (UInt64.le_iff_toNat_le.mpr ?_), hadd]
      · rfl
      · show 1 ≤ _
        omega
    generalize hk : (u.latestManifestTime.toNat - u.latestVideoManifestTime.toNat +
      u.videoFrameDuration.toNat - 1) / u.videoFrameDuration.toNat = k at hup hdown
    have hproduct : ((u.latestManifestTime - u.latestVideoManifestTime + u.videoFrameDuration - 1) /
        u.videoFrameDuration * u.videoFrameDuration).toNat = k * u.videoFrameDuration.toNat := by
      rw [UInt64.toNat_mul, UInt64.toNat_div, hsum, hk, Nat.mod_eq_of_lt (by omega)]
    have hresult := UInt64.toNat_add u.latestVideoManifestTime
      ((u.latestManifestTime - u.latestVideoManifestTime + u.videoFrameDuration - 1) /
        u.videoFrameDuration * u.videoFrameDuration)
    rw [hproduct, Nat.mod_eq_of_lt (by omega)] at hresult
    exact ⟨k, hresult, by omega, by omega⟩
  next heq =>
    rw [not_not] at heq
    refine ⟨0, ?_, le_rfl, by omega⟩
    rw [heq, zero_mul, add_zero]

end Player2.OutputCoordinator
