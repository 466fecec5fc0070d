import BtEmbedded.L2capSignalling
import BtEmbedded.Lib.Run
import Mathlib.Tactic.Common
/-!
# L2capProcess — all the links of a process (l2cap.c)

The channel ids, the signal ids and the controller are shared by all ACLs.  An `L2capLink` is the process seen from one of
its links, with the others parked; `focus` looks at it from another.  A callback on one link may make calls about any.
-/
namespace Bte

open Bytes

namespace L2capLink

/-- What the link in focus does not share. -/
def part (w : L2capLink) : L2capPart where
  channels := w.channels
  allocated := w.allocated
  clients := w.clients
  newConfigured := w.newConfigured
  newConfiguredAllocated := w.newConfiguredAllocated
  log := w.log
  notes := w.notes

@[simp] theorem channels_part (w : L2capLink) : w.part.channels = w.channels := rfl

@[simp] theorem notes_part (w : L2capLink) : w.part.notes = w.notes := rfl

/-- What link `k` holds. -/
def link (w : L2capLink) (k : Nat) : L2capPart := if k = w.here then w.part else w.parked k

/-- The process seen from link `k`. -/
def focus (w : L2capLink) (k : Nat) : L2capLink :=
  { w with
    channels := (w.link k).channels
    allocated := (w.link k).allocated
    clients := (w.link k).clients
    newConfigured := (w.link k).newConfigured
    newConfiguredAllocated := (w.link k).newConfiguredAllocated
    log := (w.link k).log
    notes := (w.link k).notes
    here := k
    parked := Function.update w.parked w.here w.part }

/-- What is done from link `k`. -/
def onLink (w : L2capLink) (k : Nat) (f : L2capLink → L2capLink) : L2capLink := (f (w.focus k)).focus w.here

@[simp] theorem link_here (w : L2capLink) : w.link w.here = w.part := if_pos rfl

@[simp] theorem here_focus (w : L2capLink) (k : Nat) : (w.focus k).here = k := rfl

/-- **Looking from another link changes none of them.** -/
@[simp] theorem link_focus (w : L2capLink) (k j : Nat) : (w.focus k).link j = w.link j := by
  by_cases hj : j = k
  · subst hj
    rw [link, here_focus, if_pos rfl]
    rfl
  · rw [link, here_focus, if_neg hj]
    by_cases hh : j = w.here
    · subst hh
      simp [focus]
    · simp [focus, link, hh]

theorem link_start (dev : AclOut) (k : Nat) : (L2capLink.start dev).link k = .new := by
  by_cases hk : k = (L2capLink.start dev).here
  · rw [hk, link_here]
    rfl
  · exact if_neg hk

theorem link_of_ne {w w' : L2capLink} (hh : w'.here = w.here) (hp : w'.parked = w.parked) {k : Nat} (hk : k ≠ w.here) :
    w'.link k = w.link k := by
  rw [link, link, hh, hp, if_neg hk, if_neg hk]

end L2capLink

/-- The client's functions: the calls each makes, and the link each of these is about. -/
def L2capClients : Type := Nat → L2capCallback → L2capLink → List (Nat × L2capCall)

/-- The calls of a callback, one by one. -/
def L2capClients.react (clients : L2capClients) (hosts : Nat → L2capHost) (k : Nat) (c : L2capCallback) (w : L2capLink) :
    L2capLink :=
  (clients k c w).foldl (fun w call => w.onLink call.1 (L2capCall.apply (hosts call.1) · call.2)) w

/-- The hosts of the links, whose clients may be called back inside their own calls, down to a depth. -/
def L2capClients.hosts (clients : L2capClients) (hosts : Nat → L2capHost) : Nat → Nat → L2capHost
  | 0, k => { hosts k with react := fun _ w => w }
  | depth + 1, k => { hosts k with react := clients.react (clients.hosts hosts depth) k }

inductive ProcessOp
  | api (k : Nat) (call : L2capCall)
  | received (k : Nat) (reader : BufferReader)
  | aclConnected (k status : Nat)
  | aclDisconnected (k reason : Nat)
  /-- The controller reports completed packets, or takes others. -/
  | controller (dev : AclOut)

def L2capLink.processStep (hosts : Nat → L2capHost) (w : L2capLink) : ProcessOp → L2capLink
  | .api k call => w.onLink k fun w => call.apply (hosts k) w
  | .received k reader => w.onLink k fun w => (aclDataReceivedCb (hosts k) w reader).2
  | .aclConnected k status => w.onLink k fun w => aclConnectedCb (hosts k) w status
  | .aclDisconnected k reason => w.onLink k fun w => aclDisconnectedCb (hosts k) w reason
  | .controller dev => { w with dev := dev }

/-- A run of a process that starts without channels. -/
def processRun (hosts : Nat → L2capHost) (clients : L2capClients) (depth : Nat) (dev : AclOut) (ops : List ProcessOp) :
    L2capLink :=
  Sys.run (L2capLink.processStep (clients.hosts hosts depth)) (.start dev) ops

end Bte
