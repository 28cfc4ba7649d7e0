import ForwardedIp.Fault
/-!
# Ledger stores

The ledger records, for each hardware address, the forwarded addresses that the manager believes
to have bound there. It is what tells them from addresses that somebody else bound. An absent
record is not the same as an empty one.
-/
namespace ForwardedIp

/-- A place that keeps the ledger. Every operation may fail. -/
class LedgerStore (L : Type) where
  read : String → StateM L (Except Fault (Option (List String)))
  write : String → List String → StateM L (Except Fault Unit)
  delete : String → StateM L (Except Fault Unit)
  list : StateM L (Except Fault (List String))
  /-- Makes sure that everything is kept for good. -/
  flush : StateM L (Except Fault Unit)

end ForwardedIp
