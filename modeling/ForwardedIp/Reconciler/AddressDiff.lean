/-!
# The difference between wanted and bound addresses

Addresses are compared as texts. Wanted ones that are not bound are added. Bound ones that the
ledger records and nobody wants are removed. A bound address without a record is somebody else's
and stays.
-/
namespace ForwardedIp

/-- What has to change on an interface. -/
structure AddressDiff where
  toAdd : List String := []
  toRemove : List String := []
  deriving DecidableEq

namespace AddressDiff

/-- What has to change, in wanted order and in bound order. -/
def between (recorded wanted bound : List String) : AddressDiff where
  toAdd := (wanted.filter fun ip => !bound.contains ip).eraseDups
  toRemove := (bound.filter fun ip => recorded.contains ip && !wanted.contains ip).eraseDups

def isEmpty (d : AddressDiff) : Bool := d.toAdd.isEmpty && d.toRemove.isEmpty

theorem mem_toAdd {recorded wanted bound : List String} {ip : String} :
    ip ∈ (between recorded wanted bound).toAdd ↔ ip ∈ wanted ∧ ip ∉ bound := by
  simp [between]

theorem mem_toRemove {recorded wanted bound : List String} {ip : String} :
    ip ∈ (between recorded wanted bound).toRemove ↔ ip ∈ bound ∧ ip ∈ recorded ∧ ip ∉ wanted := by
  simp [between]

end AddressDiff

end ForwardedIp
