/-!
# Screen strategies and prose episodes

The strategies that construct screen intervals, and the episodes that the prose reconstruction
reads off the events of an interval.
-/

namespace Chronicle.Screens

/-- `ScreenSessionConstructionStrategyId` -/
inductive Strategy where
  | chronicleScreenInteractiveV1
  | parryToth2025SessionGlanceV1
  | zhu2018UnlockLockV1
  | unlockToLockV1
  | unlockToOffOrLockV1
deriving DecidableEq, Repr

/-- `SchoedelCompletion` -/
inductive SchoedelCompletion where
  | lastPackageEventBeforeDifferentApp
  | lastPackageEventBeforeScreenEnd
  | singletonZeroLength
  | rightCensoredScreenInterval
deriving DecidableEq, Repr

/-- `SchoedelCompletion::canonical_id` -/
def SchoedelCompletion.canonicalId : SchoedelCompletion → String
  | lastPackageEventBeforeDifferentApp => "last_package_event_before_different_app"
  | lastPackageEventBeforeScreenEnd => "last_package_event_before_screen_end"
  | singletonZeroLength => "singleton_zero_length"
  | rightCensoredScreenInterval => "right_censored_screen_interval"

/-- `SchoedelEpisodeEvidence` -/
structure SchoedelEpisodeEvidence where
  episodeId : String
  participantId : String
  packageName : String
  screenIntervalId : String
  b05StrategyId : Strategy
  startNs : Int
  stopNs : Option Int
  rawDurationNs : Option Int
  startSourceRow : Nat
  stopSourceRow : Option Nat
  sourceRows : List Nat
  completion : SchoedelCompletion
  boundedHeadlineCandidate : Bool
deriving DecidableEq, Repr

end Chronicle.Screens
