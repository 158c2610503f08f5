import Chronicle.Pipeline.Settled
import Chronicle.Pipeline.Totals

/-!
# Rows excluded by the maximum

A row that the maximum made ineligible is meant to count in no published total, just as a row that
the minimum made ineligible. The review and the aggregates ask for both flags; the credit channel,
the day coverage and the attributed minutes ask for the minimum flag only.
-/

namespace Chronicle.Pipeline

open Chronicle.Library Chronicle.Library.Stages Chronicle.Credit

variable {row : Row} {rows : List Row}

/-! ## The minutes that are added -/

section Filters

variable {β : Type} {p : Row → Bool} {g : Row → β}

end Filters

/-! ## Consumers -/

section Classification

variable {later : Row}

end Classification

namespace AppRun

end AppRun

end Chronicle.Pipeline
