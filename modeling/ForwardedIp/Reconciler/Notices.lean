import ForwardedIp.Reconciler.BadInputSet
import ForwardedIp.Reconciler.Event
import ForwardedIp.Reconciler.Visit
/-!
# What a pass tells its observer

The events of a pass follow from its visits. Bad input is told once: a hardware address by its
raw text, a forwarded address by the canonical hardware address and its text.
-/
namespace ForwardedIp

/-- The bad input told so far. -/
structure Notices where
  macs : BadInputSet := {}
  ips : BadInputSet := {}
  deriving DecidableEq

namespace Notices

/-- Tells about a declared hardware address that is skipped, if it is told for the first time. -/
def badMac (n : Notices) (raw reason : String) : List Event × Notices :=
  let (first, macs) := n.macs.firstReport raw
  (if first then [.badInterface raw reason] else [], { n with macs })

/-- What stands for a forwarded address of an interface in the set of bad ones. A canonical
hardware address has a fixed length, so no two pairs share a text. -/
def ipKey (mac : Mac) (ip : String) : String := mac.text ++ " " ++ ip

/-- Tells about a forwarded address that is none, if it is told for the first time. -/
def badIp (n : Notices) (mac : Mac) (ip : String) : List Event × Notices :=
  let (first, ips) := n.ips.firstReport (ipKey mac ip)
  (if first then [.badForwardedIp mac.text ip] else [], { n with ips })

/-- Tells about things in order. -/
def tellAll (tell : Notices → α → List Event × Notices) (n : Notices) (as : List α) :
    List Event × Notices :=
  as.foldl (fun (told, n) a =>
    let (events, n) := tell n a
    (told ++ events, n)) ([], n)

/-- The event of a change, unless there is none. -/
def changeEvent (w : Work) : List Event :=
  if w.binds.isEmpty && w.unbinds.isEmpty then []
  else [.forwardedIpsChanged w.mac.text (w.binds.map (·.ip)) (w.unbinds.map (·.ip))]

/-- The events of failed attempts. -/
def failureEvents (w : Work) : List Event :=
  (w.binds.filterMap fun a => a.fault?.map fun f => .addressAddFailed w.mac.text a.ip f.message) ++
    w.unbinds.filterMap fun a => a.fault?.map fun f =>
      .addressRemoveFailed w.mac.text a.ip f.message

/-- Why a declared interface without a live one is skipped. -/
def unmatchedReason (mac : Mac) : String :=
  "no interface with mac " ++ mac.text ++ " exists on system"

/-- Tells about a visit. -/
def tell (n : Notices) : Visit → List Event × Notices
  | .unparseable raw => n.badMac raw (Mac.invalid raw).message
  | .unmatched raw mac => n.badMac raw (unmatchedReason mac)
  | .unreadable _ _ _ => ([], n)
  | .unrecorded _ _ _ => ([], n)
  | .reconciled w =>
      let (bad, n) := tellAll (fun n => n.badIp w.mac) n w.rejected
      (bad ++ changeEvent w ++ failureEvents w, n)

/-- What is remembered of bad input does not depend on the events that are told. -/
theorem tellAll_snd {α : Type} (tell : Notices → α → List Event × Notices) (n : Notices)
    (as : List α) : (tellAll tell n as).2 = as.foldl (fun n a => (tell n a).2) n := by
  unfold tellAll
  generalize ([] : List Event) = told
  induction as generalizing told n with
  | nil => rfl
  | cons a as ih => exact ih (tell n a).2 (told ++ (tell n a).1)

end Notices

end ForwardedIp
