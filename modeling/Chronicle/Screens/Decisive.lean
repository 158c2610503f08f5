import Chronicle.Library.Ties
import Chronicle.Screens.Partitions

/-!
# Decisive ties

The probe that counts the groups of equal timestamps whose source order matters: it exchanges two
neighbouring relevant rows of a group at a time and runs the strategy again.
-/

namespace Chronicle.Screens

section Probe

variable (sha256 : List UInt8 → List UInt8)

/-- `screen_semantic_signature` -/
def screenSemanticSignature (strategy : Strategy) (rows : List RawB05Event) :
    ScreenSemanticSignature :=
  let participantId := (rows.head?.map (·.participantId)).getD ""
  match strategy with
  | .chronicleScreenInteractiveV1 => constructChroniclePartition sha256 participantId rows
  | .parryToth2025SessionGlanceV1 => constructParryTothPartition sha256 participantId rows
  | .zhu2018UnlockLockV1 => constructZhuPartition sha256 participantId rows
  | .unlockToLockV1 | .unlockToOffOrLockV1 =>
      constructDirectUnlockPartition sha256 participantId strategy rows

/-- The signals whose order can matter to a strategy. -/
def relevant (strategy : Strategy) (signal : AndroidUsageSignal) : Bool :=
  match strategy with
  | .parryToth2025SessionGlanceV1 => parryReads signal
  | .zhu2018UnlockLockV1 => true
  | .unlockToLockV1 => signal = .keyguardHidden ∨ signal = .keyguardShown
  | .unlockToOffOrLockV1 =>
      signal = .keyguardHidden ∨ signal = .keyguardShown ∨ signal = .screenNonInteractive
  | .chronicleScreenInteractiveV1 => false

/-- `zhu_partition_branches_on` -/
def zhuPartitionBranchesOn (signal : AndroidUsageSignal) : Bool :=
  match signal with
  | .screenInteractive | .keyguardHidden | .screenNonInteractive | .deviceShutdown => true
  | _ => false

/-- `<[T]>::swap` -/
def swapRows (rows : List RawB05Event) (first second : Nat) : List RawB05Event :=
  match rows[first]?, rows[second]? with
  | some x, some y => (rows.set first y).set second x
  | _, _ => rows

/-- The relevant rows that have a timestamp, with their positions. -/
def relevantPositions (strategy : Strategy) (rows : List RawB05Event) :
    List (RawB05Event × Nat) :=
  rows.zipIdx.filter fun entry => relevant strategy entry.1.signal && entry.1.timestampNs.isSome

/-- The positions of the relevant rows, grouped by timestamp. -/
def decisiveGroups (strategy : Strategy) (rows : List RawB05Event) : List (List Nat) :=
  let positions := relevantPositions strategy rows
  (positions.map fun entry => entry.1.timestampNs).dedup.map fun timestamp =>
    (positions.filter fun entry => entry.1.timestampNs = timestamp).map (·.2)

/-- The exchange of two positions makes the strategy construct something else. -/
def exchangeShows (strategy : Strategy) (rows : List RawB05Event) (first second : Nat) : Bool :=
  let branches := fun position =>
    rows[position]?.any fun row => zhuPartitionBranchesOn row.signal
  if strategy = .zhu2018UnlockLockV1 ∧ !branches first ∧ !branches second then false
  else screenSemanticSignature sha256 strategy (swapRows rows first second) ≠
    screenSemanticSignature sha256 strategy rows

/-- `decisive_equal_timestamp_group_count` -/
def decisiveEqualTimestampGroupCount (strategy : Strategy) (rows : List RawB05Event) : Nat :=
  if strategy = .chronicleScreenInteractiveV1 then 0
  else
    ((decisiveGroups strategy rows).countP fun positions =>
      (positions.zip positions.tail).any fun pair =>
        exchangeShows sha256 strategy rows pair.1 pair.2) % 2 ^ 32

end Probe

end Chronicle.Screens
