import Mathlib.Data.Int.ConditionallyCompleteOrder
import Mathlib.Data.Prod.Lex
import Mathlib.Order.WithBot
import Chronicle.Library.Binary64

/-!
# The data of the EYES segmentation

Device-state blocks, app episodes, merged usage chunks and their tagged fragments. An `i64` is the
integer it stands for; where the source computes with plain operators the result is wrapped. An
`f64` is a binary64 datum.
-/

namespace Chronicle.Eyes

open Chronicle.Library Chronicle.Library.Machine

/-- How an episode's duration is measured. -/
inductive EyesDurationMode where
  | tripletStructured
  | pauseBound
deriving DecidableEq, Repr

/-- The thresholds of the segmentation. -/
structure EyesOptions where
  proximityIntervalSeconds : Binary64
  durationMode : EyesDurationMode
  blockGlueSeconds : Binary64
  gapSilenceHours : Binary64
  gapRebootNeighborSeconds : Binary64
  gapReconcileSeconds : Binary64
  pickupMinimumSeconds : Binary64
  pickupActiveHoleSeconds : Binary64
  fauBlockMinimumSeconds : Binary64
deriving DecidableEq

/-- `EyesOptions::default` -/
def EyesOptions.default : EyesOptions where
  proximityIntervalSeconds := .finite 2
  durationMode := .tripletStructured
  blockGlueSeconds := .finite 60
  gapSilenceHours := .finite 3
  gapRebootNeighborSeconds := .finite 1
  gapReconcileSeconds := .finite 10
  pickupMinimumSeconds := .finite 5
  pickupActiveHoleSeconds := .finite 5
  fauBlockMinimumSeconds := .finite 5

/-- The options of the pipeline: the defaults with the requested proximity interval. -/
def productionOptions (proximityIntervalNs : Int) : EyesOptions :=
  { EyesOptions.default with
    proximityIntervalSeconds := (Binary64.ofInt proximityIntervalNs).divConst 1000000000 }

/-- `seconds_to_ns` -/
def secondsToNs (seconds : Binary64) : Int := (seconds.mulConst 1000000000).roundToI64

/-- A whole number of seconds below `2 ^ 22` is converted exactly. -/
theorem secondsToNs_natCast {n : ℤ} (hn : 0 ≤ n) (hsmall : n < 4194304) :
    secondsToNs (.finite n) = n * 1000000000 := by
  have hproduct : ((n : ℚ) * 1000000000) = ((n * 1000000000 : ℤ) : ℚ) := by push_cast; ring
  have habs : |n * 1000000000| < 2 ^ (53 : ℕ) := by
    rw [abs_of_nonneg (by omega)]
    omega
  have hfits : Fits64 (n * 1000000000) := by
    rw [fits64_iff]
    omega
  unfold secondsToNs Binary64.mulConst
  simp only [hproduct, Binary64.ofRat_intCast habs, Binary64.roundToI64,
    Binary64.roundHalfAway_intCast, saturate64_of_fits hfits]

/-- The five device states. -/
inductive EyesBlockType where
  | shutdown
  | idle
  | glance
  | gap
  | active
deriving DecidableEq, Repr

/-- The place of a state in the derived order. -/
def EyesBlockType.rank : EyesBlockType → Nat
  | .shutdown => 0
  | .idle => 1
  | .glance => 2
  | .gap => 3
  | .active => 4

theorem EyesBlockType.rank_injective : Function.Injective EyesBlockType.rank := by
  intro a b h
  cases a <;> cases b <;> first | rfl | cases h

instance : LinearOrder EyesBlockType :=
  LinearOrder.lift' EyesBlockType.rank EyesBlockType.rank_injective

/-- Which endpoints a block has. -/
inductive EyesBlockKind where
  | paired
  | startOnly
  | endOnly
  | empty
deriving DecidableEq, Repr

/-- One device-state block. -/
structure EyesBlock where
  blockType : EyesBlockType
  startNs : Option Int
  endNs : Option Int
deriving DecidableEq, Repr

/-- `EyesBlock::kind` -/
def EyesBlock.kind (block : EyesBlock) : EyesBlockKind :=
  match block.startNs, block.endNs with
  | some _, some _ => .paired
  | some _, none => .startOnly
  | none, some _ => .endOnly
  | none, none => .empty

/-- `EyesBlock::duration_ns` -/
def EyesBlock.durationNs (block : EyesBlock) : Option Int :=
  match block.startNs, block.endNs with
  | some start, some stop => some (wrap64 (stop - start))
  | _, _ => none

/-- `EyesBlock::duration_seconds_truncated` -/
def EyesBlock.durationSecondsTruncated (block : EyesBlock) : Option Int :=
  block.durationNs.map fun ns => ns.tdiv 1000000000

/-- `EyesBlock::paired`: both endpoints of a block of positive length. -/
def EyesBlock.paired (block : EyesBlock) : Option (Int × Int) :=
  match block.startNs, block.endNs with
  | some start, some stop => if stop > start then some (start, stop) else none
  | _, _ => none

theorem EyesBlock.paired_eq_some {block : EyesBlock} {start stop : Int} :
    block.paired = some (start, stop) ↔
      block.startNs = some start ∧ block.endNs = some stop ∧ start < stop := by
  unfold EyesBlock.paired
  constructor
  · intro h
    split at h
    · split at h <;> simp_all
    · cases h
  · rintro ⟨hstart, hstop, hlt⟩
    simp [hstart, hstop, hlt]

/-- How an episode's opening was determined. -/
inductive EyesResumeInference where
  | observed
  | missingActivityResumed
deriving DecidableEq, Repr

/-- How an episode's pause was determined. -/
inductive EyesPauseInference where
  | unobserved
  | observed
  | matchingPreviousBlock
  | matchingCurrentBlock
  | nextBlockPausedInference
deriving DecidableEq, Repr

/-- How an episode's end was determined. -/
inductive EyesEpisodeEndInference where
  | unobserved
  | observedStop
  | nextBlockStoppedInference
  | missingStop
  | appKilled
  | systemShutDown
  | pauseFallback
deriving DecidableEq, Repr

/-- One reconstructed app-usage episode. -/
structure EyesAppEpisode where
  appPackageName : String
  timeResumeNs : Option Int
  timePauseNs : Option Int
  timeStopNs : Option Int
  resumeInference : EyesResumeInference
  pauseInference : EyesPauseInference
  endInference : EyesEpisodeEndInference
  durationSeconds : Binary64
deriving DecidableEq

/-- A per-app merged usage interval, with the indices of the episodes merged into it. -/
structure EyesAppUsageChunk where
  appPackageName : String
  startNs : Int
  endNs : Int
  episodeIndices : List Nat
deriving DecidableEq, Repr

/-- A slice of an app chunk tagged with the device state that covered it. -/
structure EyesFinalAppUsage where
  appPackageName : String
  chunkIndex : Nat
  startNs : Int
  endNs : Int
  deviceStatus : EyesBlockType
deriving DecidableEq, Repr

end Chronicle.Eyes
