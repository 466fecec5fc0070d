import BtEmbedded.L2capSignalling
import Mathlib.Tactic.Common
/-!
# L2capOwn — what the stack does by itself (l2cap.c)

A handler runs functions of the client in the middle of its work, and what these have the stack do stands in the log between
the handler's own events.  `L2capHost.unheard` is the same host with those left out: the client does to the link what it
did, and the log is the handler's own.  `Appends` says which events of a kind a step has added.
-/
namespace Bte

open Bytes

/-- The log has grown, and of the new events `f` picks these. -/
def Appends {β : Type} (f : L2event → Option β) (w w' : L2capLink) (bs : List β) : Prop :=
  ∃ es, w'.log = w.log ++ es ∧ es.filterMap f = bs

namespace Appends
variable {β : Type} {f : L2event → Option β} {a b c : L2capLink} {bs bs' : List β}

theorem of_log (h : b.log = a.log) : Appends f a b [] := ⟨[], by rw [h, List.append_nil], rfl⟩

theorem refl (a : L2capLink) : Appends f a a [] := of_log rfl

theorem trans (h : Appends f a b bs) (h' : Appends f b c bs') : Appends f a c (bs ++ bs') := by
  obtain ⟨es, hlog, hbs⟩ := h
  obtain ⟨es', hlog', hbs'⟩ := h'
  refine ⟨es ++ es', by rw [hlog', hlog, List.append_assoc], ?_⟩
  rw [List.filterMap_append, hbs, hbs']

theorem left (h : Appends f a b []) (h' : Appends f b c bs) : Appends f a c bs := h.trans h'

theorem right (h : Appends f a b bs) (h' : Appends f b c []) : Appends f a c bs := by
  have hall := h.trans h'
  rwa [List.append_nil] at hall

/-- What a step has added, read from the log. -/
theorem new (h : Appends f a b bs) : (b.log.drop a.log.length).filterMap f = bs := by
  obtain ⟨es, hlog, hbs⟩ := h
  rw [hlog, List.drop_left, hbs]

theorem record (w : L2capLink) (e : L2event) : Appends f w (w.record e) (f e).toList := by
  refine ⟨[e], rfl, ?_⟩
  cases he : f e <;> simp [he]

end Appends

/-! ## The stack's own events -/

/-- The client's functions leave the log as they find it. -/
def L2capHost.Silent (host : L2capHost) : Prop := ∀ c w, (host.react c w).log = w.log

/-- What the client's calls have the stack log is left out. -/
def L2capHost.unheard (host : L2capHost) : L2capHost :=
    { host with react := fun c w => { host.react c w with log := w.log } }

theorem silent_unheard (host : L2capHost) : host.unheard.Silent := fun _ _ => rfl

/-- A command as it goes out: its code, id and body. -/
def L2event.command : L2event → Option (Nat × Nat × List UInt8)
  | .emitted _ code id body => some (code, id, body)
  | _ => none

/-- The commands that a step sends. -/
abbrev Sends (w w' : L2capLink) (cs : List (Nat × Nat × List UInt8)) : Prop := Appends L2event.command w w' cs

section Silent

theorem sends_unref (w : L2capLink) (p : Nat) : Sends w (bteL2capUnref w p) [] := by
  unfold bteL2capUnref aclL2capRemoveClient
  simp only
  split
  · split
    · exact (Appends.of_log rfl).left (Appends.record _ .aclDisconnect)
    · exact .of_log rfl
  · exact .of_log rfl

variable {host : L2capHost} (hh : host.Silent)
include hh

theorem sends_call (w : L2capLink) (p : Nat) (c : L2capCallback) : Sends w (w.call host p c) [] :=
  (Appends.record w (.callback p c)).left (.of_log (hh c _))

theorem sends_stateChanged (w : L2capLink) (p : Nat) (state : L2capState) : Sends w (stateChanged host w p state) [] := by
  unfold stateChanged
  split
  · exact .refl w
  · exact sends_call hh w p _
  · unfold onL2capStateChanged
    split
    · refine Appends.left ?_ (sends_unref _ p)
      exact Appends.left (.of_log rfl) (sends_call hh _ p _)
    · exact .refl w
  · unfold newConfiguredStateChangedCb
    simp only
    split
    · refine Appends.left ?_ (sends_unref _ p)
      refine Appends.left ?_ (.of_log rfl)
      exact Appends.left (.of_log rfl) (sends_call hh _ p _)
    · split
      · refine Appends.left ?_ (sends_unref _ p)
        split
        · exact .refl w
        · exact (sends_call hh w p _).left (.of_log rfl)
      · exact .refl w

/-- A change of state sends nothing. -/
theorem sends_setState (w : L2capLink) (p : Nat) (state : L2capState) : Sends w (l2capSetState host w p state) [] := by
  unfold l2capSetState
  split
  · exact .refl w
  · have henter : Sends w (w.enter p state) [] :=
      (Appends.of_log rfl).left (Appends.record _ (.state p (w.channels p).state state))
    exact henter.left (sends_stateChanged hh _ p state)

end Silent

section Command
variable (host : L2capHost) (w : L2capLink)

theorem sends_send (p : Option Nat) (code id : Nat) (body : List UInt8) (buffer : List Packet) :
    Sends w (w.send host p code id body buffer).2 [(code, id, body)] :=
  (Appends.of_log rfl).left (Appends.record _ (.emitted p code id body))

/-- A reply that can be made is sent. -/
theorem sends_cmdReply {data : List UInt8} {code id : Nat} (hmade : (aclL2capCreateCmd host code id data.length).isSome)
    (p : Option Nat) : Sends w (aclL2capCmdReply host w p code id data).2 [(code, id, data)] := by
  obtain ⟨writer, hwriter⟩ := Option.isSome_iff_exists.1 hmade
  unfold aclL2capCmdReply
  rw [hwriter]
  exact sends_send host w p code id data _

end Command

end Bte
