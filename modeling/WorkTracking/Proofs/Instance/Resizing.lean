import WorkTracking.Proofs.Identities
import WorkTracking.Proofs.Instance.Promotion

/-!
Tables of another capacity. A table can be copied to any number of slots that holds its entries,
however they are spread over its own slots. In the copy they come without gaps, in the same order,
and the slots left free are as many as the new instances that it takes in, one behind the other.
-/
namespace WorkTracking

open OrderedMap (Keyed)

variable {K V : Type}

namespace SlotTable

/-! ### Packed tables -/

section Packed

variable {l : List (Instance K × V)} {k : Instance K}

end Packed

/-! ### Copies of another capacity -/

end SlotTable

namespace Instance.Workspace

end Instance.Workspace

namespace SlotTable

end SlotTable

end WorkTracking
