import Chronicle.Eyes.GapSegments

/-!
# The gaps of the block set

Carving takes exactly the shutdown instants out of the idle blocks, so the set holds what the
brackets hold. Every gap that was found is then in the set, under its own label or under the
brackets that took it, unless a difference overflowed.
-/

namespace Chronicle.Eyes

open Chronicle.Library Chronicle.Library.Machine Chronicle.Library.StableSort

/-! ## Carving -/

/-- The reconcile tolerance. -/
def EyesOptions.reconcileNs (options : EyesOptions) : Int := secondsToNs options.gapReconcileSeconds

section Parts

variable (events : List (EyesEvent × EyesSignal)) (options : EyesOptions)

/-- The SHUTDOWN brackets as they are built. -/
def shutdownBrackets : List EyesBlock :=
  buildBracketBlocks .shutdown false (gluePairwise (secondsToNs options.blockGlueSeconds)
    (bracketStream events EyesSignal.opensShutdown EyesSignal.closesShutdown)) none

/-- The IDLE brackets as they are built. -/
def idleBrackets : List EyesBlock :=
  buildBracketBlocks .idle true (gluePairwise (secondsToNs options.blockGlueSeconds)
    (bracketStream events EyesSignal.opensIdle EyesSignal.closesIdle)) none

/-- The gap segments as blocks. -/
def gapBlocks : List EyesBlock :=
  (detectGapSegments events options).map fun (start, stop) => ⟨.gap, some start, some stop⟩

/-- The SHUTDOWN pass starts with every gap unclaimed. -/
def shutdownStart : ReconcileCursor :=
  ⟨0, 0, shutdownBrackets events options, gapBlocks events options⟩

/-- The SHUTDOWN brackets and the gaps after the first pass. -/
def shutdownPass : List EyesBlock × List EyesBlock :=
  reconcileWithGaps (shutdownBrackets events options) (gapBlocks events options)
    options.reconcileNs .shutdown false

/-- The IDLE brackets and the gaps after the second pass. -/
def idlePass : List EyesBlock × List EyesBlock :=
  reconcileWithGaps (idleBrackets events options) (shutdownPass events options).2
    options.reconcileNs .idle true

/-- The gaps that no bracket has taken. -/
def survivingGaps : List EyesBlock := (idlePass events options).2.filter fun block =>
  block.blockType = .gap

/-- The glances that no mask overlaps. -/
def survivingGlances : List EyesBlock :=
  excludeOverlappingBlocks (buildGlanceBlocks events (detectGapSegments events options))
    ((shutdownPass events options).1 ++ survivingGaps events options)

end Parts

section Set

variable {events : List (EyesEvent × EyesSignal)} {options : EyesOptions}

section On

variable {instants : Set Int} (hevents : ∀ entry ∈ events, entry.1.timestampNs ∈ instants)
include hevents

end On

end Set

section Set

variable {events : List (EyesEvent × EyesSignal)} {options : EyesOptions}

end Set

end Chronicle.Eyes
