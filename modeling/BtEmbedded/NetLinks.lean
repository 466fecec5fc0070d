import BtEmbedded.AclConnect
/-!
# NetLinks — the channels of an ACL in two models (acl.c, l2cap.c)

`AclNet` has all the ACLs of the device, and of a channel what a connection needs; `L2capLink` has the channels of one ACL,
and all they do.  So the functions that open a channel and those that tell the channels of an ACL that it is connected, or
gone, are embedded twice.  Here the two are run side by side: as long as somebody else holds the ACL, and the callbacks do
the same in both, a link that mirrors the net goes on mirroring it.
-/
namespace Bte

open Bytes

/-! ## What a link does does not depend on its log -/

/-- The link, with more that happened on it before. -/
def L2capLink.after (w : L2capLink) (log : List L2event) : L2capLink := { w with log := log ++ w.log }

/-- The channels of the table are the same, and keep the functions that they call. -/
structure L2capLink.KeepsCbs (w w' : L2capLink) : Prop where
  clients : w'.clients = w.clients
  allocated : w'.allocated = w.allocated
  clientCb : ∀ q, (w'.channels q).clientCb = (w.channels q).clientCb
  stateChangedCb : ∀ q, (w'.channels q).stateChangedCb = (w.channels q).stateChangedCb

theorem L2capLink.KeepsCbs.trans {u v w : L2capLink} (h : u.KeepsCbs v) (h' : v.KeepsCbs w) : u.KeepsCbs w where
  clients := h'.clients.trans h.clients
  allocated := h'.allocated.trans h.allocated
  clientCb := fun q => (h'.clientCb q).trans (h.clientCb q)
  stateChangedCb := fun q => (h'.stateChangedCb q).trans (h.stateChangedCb q)

theorem keepsCbs_modify (w : L2capLink) (p : Nat) {f : L2cap → L2cap} (hclient : ∀ l, (f l).clientCb = l.clientCb)
    (hstate : ∀ l, (f l).stateChangedCb = l.stateChangedCb) : w.KeepsCbs (w.modify p f) where
  clients := rfl
  allocated := rfl
  clientCb := fun q => by
    simp only [L2capLink.modify, Function.update_apply]
    split
    · rename_i h
      rw [hclient, h]
    · rfl
  stateChangedCb := fun q => by
    simp only [L2capLink.modify, Function.update_apply]
    split
    · rename_i h
      rw [hstate, h]
    · rfl

section Request

variable (host : L2capHost) (w : L2capLink) (p : Nat) (log : List L2event)

theorem send_after (q : Option Nat) (code id : Nat) (body : List UInt8) (buffer : List Packet) :
    (w.after log).send host q code id body buffer =
      ((w.send host q code id body buffer).1, (w.send host q code id body buffer).2.after log) := by
  simp only [L2capLink.send, L2capLink.after, L2capLink.record, List.append_assoc]

theorem l2capSignal_after (code : Nat) (payload : List UInt8) : l2capSignal host (w.after log) p code payload =
    ((l2capSignal host w p code payload).1, (l2capSignal host w p code payload).2.after log) := by
  simp only [l2capSignal]
  refine Prod.ext rfl ?_
  show (if _ then _ else _ : L2capLink) = (if _ then _ else _ : L2capLink).after log
  rw [apply_ite (L2capLink.after · log)]
  rfl

theorem l2capSendSignal_after (code : Nat) (payload : List UInt8) : l2capSendSignal host (w.after log) p code payload =
    ((l2capSendSignal host w p code payload).1, (l2capSendSignal host w p code payload).2.after log) := by
  unfold l2capSendSignal
  rw [l2capSignal_after]
  generalize l2capSignal host w p code payload = signal
  obtain ⟨buffer, v⟩ := signal
  have hid : (v.after log).lastSignalId = v.lastSignalId := rfl
  cases buffer with
  | none => rfl
  | some buffer => simp only [Option.map_some, Option.any_some, Option.elim_some, hid, send_after]

theorem keepsCbs_sendSignal (code : Nat) (payload : List UInt8) : w.KeepsCbs (l2capSendSignal host w p code payload).2 := by
  unfold l2capSendSignal l2capSignal
  simp only
  cases cmdPackets host code w.nextSignalId.1 payload with
  | none => exact ⟨rfl, rfl, fun _ => rfl, fun _ => rfl⟩
  | some buffer =>
    have hcount := keepsCbs_modify (w.nextSignalId.2.note (.request p code w.nextSignalId.1 w.table)) p
      (f := fun l2cap => { l2cap with
        expectedResponseCode := code + 1
        expectedResponseId := w.nextSignalId.2.lastSignalId
        expectedResponseCount := (l2cap.expectedResponseCount + 1) % 256 }) (fun _ => rfl) fun _ => rfl
    exact ⟨hcount.clients, hcount.allocated, hcount.clientCb, hcount.stateChangedCb⟩

/-- A channel without a callback for its state. -/
theorem l2capSetState_after (host' : L2capHost) (state : L2capState) (hnull : (w.channels p).stateChangedCb = .null) :
    l2capSetState host' (w.after log) p state = (l2capSetState host w p state).after log := by
  have hcb : ((w.enter p state).channels p).stateChangedCb = .null := by
    simpa [L2capLink.enter, L2capLink.record, L2capLink.modify] using hnull
  have henter : (w.after log).enter p state = (w.enter p state).after log := by
    simp only [L2capLink.enter, L2capLink.record, L2capLink.modify, L2capLink.after, List.append_assoc]
  have hafter : (((w.enter p state).after log).channels p).stateChangedCb = .null := hcb
  have hstate : ((w.after log).channels p).state = (w.channels p).state := rfl
  unfold l2capSetState stateChanged
  rw [henter, hafter, hcb, hstate]
  split <;> rfl

theorem keepsCbs_setState (state : L2capState) (hnull : (w.channels p).stateChangedCb = .null) :
    w.KeepsCbs (l2capSetState host w p state) := by
  have hcb : ((w.enter p state).channels p).stateChangedCb = .null := by
    simpa [L2capLink.enter, L2capLink.record, L2capLink.modify] using hnull
  unfold l2capSetState stateChanged
  rw [hcb]
  split
  · exact ⟨rfl, rfl, fun _ => rfl, fun _ => rfl⟩
  · have h := keepsCbs_modify w p (f := fun l2cap => { l2cap with state := state }) (fun _ => rfl) fun _ => rfl
    exact ⟨h.clients, h.allocated, h.clientCb, h.stateChangedCb⟩

/-- The request is the same whatever happened before, and whatever the client's functions do. -/
theorem l2capConnectionRequest_after (react : L2capCallback → L2capLink → L2capLink)
    (hnull : (w.channels p).stateChangedCb = .null) :
    l2capConnectionRequest { host with react := react } (w.after log) p =
      ((l2capConnectionRequest host w p).1, (l2capConnectionRequest host w p).2.after log) ∧
    w.KeepsCbs (l2capConnectionRequest host w p).2 := by
  have hallot : (w.after log).nextChannelId.2.allot p w.nextChannelId.1 =
    (w.nextChannelId.2.allot p w.nextChannelId.1).after log := rfl
  have hstate : ((w.after log).channels p).state = (w.channels p).state := rfl
  have hnext : (w.after log).nextChannelId.1 = w.nextChannelId.1 := rfl
  have hreact : ∀ (v : L2capLink) (payload : List UInt8), l2capSendSignal { host with react := react } v p
      l2capSignalConnReq payload = l2capSendSignal host v p l2capSignalConnReq payload := fun _ _ => rfl
  unfold l2capConnectionRequest
  rw [hstate]
  split
  · exact ⟨rfl, rfl, rfl, fun _ => rfl, fun _ => rfl⟩
  · simp only [hnext, hallot]
    have hkept : w.KeepsCbs (w.nextChannelId.2.allot p w.nextChannelId.1) := by
      have h := keepsCbs_modify (w.nextChannelId.2.note (.allotted p w.nextChannelId.1 w.nextChannelId.2.tables)) p
        (f := fun l2cap => { l2cap with localChannelId := w.nextChannelId.1 }) (fun _ => rfl) fun _ => rfl
      exact ⟨h.clients, h.allocated, h.clientCb, h.stateChangedCb⟩
    generalize w.nextChannelId.2.allot p w.nextChannelId.1 = w' at hkept
    have hchannels : (w'.after log).channels = w'.channels := rfl
    rw [hreact, hchannels, l2capSendSignal_after]
    have hsent := keepsCbs_sendSignal host w' p l2capSignalConnReq
      (leBytes 2 (w'.channels p).psm ++ leBytes 2 w.nextChannelId.1)
    generalize l2capSendSignal host w' p l2capSignalConnReq
      (leBytes 2 (w'.channels p).psm ++ leBytes 2 w.nextChannelId.1) = r at hsent
    have hcb : (r.2.channels p).stateChangedCb = .null := by
      rw [hsent.stateChangedCb, hkept.stateChangedCb, hnull]
    simp only [l2capSetState_after host _ p log _ _ hcb]
    split
    · exact ⟨rfl, (hkept.trans hsent).trans (keepsCbs_setState host r.2 p _ hcb)⟩
    · exact ⟨rfl, hkept.trans hsent⟩

end Request

/-! ## A link that mirrors the net -/

/-- An ACL of the net, and what it is while its channels are told. -/
structure OneAcl where
  acl : Nat
  address : BdAddr
  connHandle : UInt16
  ready : Bool

/-- Whether a new channel of the ACL starts at once. -/
def Acl.ready (acl : Acl) : Bool :=
  decide (acl.connHandle ≠ bteConnHandleInvalid ∧ acl.authenticationCompleted = acl.authenticationRequired)

/-- The log of a link has the calls of configure callbacks twice: as what `cmd_data` held, and as what ran. -/
def L2event.shared : L2event → Bool
  | .configureCb _ _ _ _ => false
  | _ => true

def L2capLink.sharedLog (w : L2capLink) : List L2event := w.log.filter L2event.shared

def NetEvent.l2event : NetEvent → Option L2event
  | .l2cap e => some e
  | _ => none

def AclNet.sharedLog (net : AclNet) : List L2event := (net.log.filterMap NetEvent.l2event).filter L2event.shared

/-- The callbacks of `bte_l2cap_new_outgoing` alone. -/
structure L2cap.Plain (l2cap : L2cap) : Prop where
  clientCb : l2cap.clientCb = .null ∨ ∃ cmd f, l2cap.clientCb = .client cmd f
  stateChangedCb : l2cap.stateChangedCb = .null

/-- The places of the table that are taken. -/
def L2capLink.used (w : L2capLink) : Nat := (Finset.univ.filter fun i => (w.clients i).isSome).card

structure OneAcl.Standing (A : OneAcl) (net : AclNet) : Prop where
  connHandle : (net.acls A.acl).connHandle = A.connHandle
  ready : (net.acls A.acl).ready = A.ready
  found : net.bteAclGetForAddress A.address = some A.acl

/-- A channel in the table of the ACL. -/
structure OneAcl.Seat (A : OneAcl) (net : AclNet) (w : L2capLink) (p : Nat) : Prop where
  owner : net.aclOf p = A.acl
  made : p < w.allocated
  plain : (w.channels p).Plain

/-- The link is the ACL with its channels, and others hold `spare` references to the ACL and more. -/
structure OneAcl.Mirrors (A : OneAcl) (spare : Nat) (net : AclNet) (w : L2capLink) : Prop where
  link : net.link A.acl = { w with log := [] }
  told : net.sharedLog = w.sharedLog
  standing : A.Standing net
  seats : ∀ i p, w.clients i = some p → A.Seat net w p
  held : (w.used + spare : Int) < (net.acls A.acl).refCount

/-- The two hosts are one, and the callbacks do the same in both; they leave the channels in the table. -/
structure OneAcl.HostsAgree (A : OneAcl) (host : NetHost) (host' : L2capHost) : Prop where
  same : host' = { host.l2cap with connHandle := A.connHandle.toNat, react := host'.react }
  react : ∀ (c : L2capCallback) {spare : Nat} {net : AclNet} {w : L2capLink}, A.Mirrors spare net w →
    A.Mirrors spare (host.react c net) (host'.react c w) ∧
      ∀ i p, w.clients i = some p → (host'.react c w).clients i = some p

namespace OneAcl

section Standing

variable {A : OneAcl} {net : AclNet}

theorem Standing.of_same (h : A.Standing net) {net' : AclNet} (htable : net'.table = net.table)
    (haddress : ∀ b, (net'.acls b).address = (net.acls b).address)
    (hconnHandle : (net'.acls A.acl).connHandle = (net.acls A.acl).connHandle)
    (hready : (net'.acls A.acl).ready = (net.acls A.acl).ready) : A.Standing net' where
  connHandle := hconnHandle.trans h.connHandle
  ready := hready.trans h.ready
  found := by
    have hsame : net'.bteAclGetForAddress A.address = net.bteAclGetForAddress A.address := by
      simp only [AclNet.bteAclGetForAddress, htable, haddress]
    exact hsame.trans h.found

theorem Standing.modifyAcl (h : A.Standing net) (a : Nat) {f : Acl → Acl} (haddress : ∀ acl, (f acl).address = acl.address)
    (hconnHandle : ∀ acl, (f acl).connHandle = acl.connHandle) (hready : ∀ acl, (f acl).ready = acl.ready) :
    A.Standing (net.modifyAcl a f) := by
  refine h.of_same rfl (fun b => ?_) ?_ ?_
  · simp only [AclNet.modifyAcl, Function.update_apply]
    split
    · rename_i hb
      rw [haddress, hb]
    · rfl
  · simp only [AclNet.modifyAcl, Function.update_apply]
    split
    · rename_i hb
      rw [hconnHandle, hb]
    · rfl
  · simp only [AclNet.modifyAcl, Function.update_apply]
    split
    · rename_i hb
      rw [hready, hb]
    · rfl

end Standing

/-! ## The pieces -/

section Pieces

variable {A : OneAcl} {spare : Nat} {net : AclNet} {w : L2capLink}

theorem Mirrors.channels (h : A.Mirrors spare net w) : net.l2cap.channels = w.channels :=
  show (net.link A.acl).channels = w.channels by rw [h.link]

theorem Mirrors.clients (h : A.Mirrors spare net w) : (net.acls A.acl).clients = w.clients :=
  show (net.link A.acl).clients = w.clients by rw [h.link]

theorem Mirrors.allocated (h : A.Mirrors spare net w) : net.l2cap.allocated = w.allocated :=
  show (net.link A.acl).allocated = w.allocated by rw [h.link]

/-- Any net has one. -/
theorem mirrors_self (hstanding : A.Standing net)
    (hseats : ∀ i p, (net.acls A.acl).clients i = some p → A.Seat net (net.link A.acl) p)
    (hheld : ((net.link A.acl).used + spare : Int) < (net.acls A.acl).refCount) :
    A.Mirrors spare net { net.link A.acl with log := net.log.filterMap NetEvent.l2event } :=
  ⟨rfl, rfl, hstanding, fun i p hi => ⟨(hseats i p hi).owner, (hseats i p hi).made, (hseats i p hi).plain⟩, hheld⟩

theorem sharedLog_append (es : List NetEvent) : { net with log := net.log ++ es }.sharedLog =
    net.sharedLog ++ (es.filterMap NetEvent.l2event).filter L2event.shared := by
  simp only [AclNet.sharedLog, List.filterMap_append, List.filter_append]

theorem filterMap_l2cap (es : List L2event) : (es.map NetEvent.l2cap).filterMap NetEvent.l2event = es := by
  rw [List.filterMap_map]
  exact List.filterMap_some

/-- Nothing has happened to the ACL and its channels but what is in the logs. -/
theorem Mirrors.of_log (h : A.Mirrors spare net w) {net' : AclNet} {log : List L2event} (hacls : net'.acls = net.acls)
    (htable : net'.table = net.table) (hl2cap : net'.l2cap = net.l2cap) (howner : net'.aclOf = net.aclOf)
    (htold : net'.sharedLog = log.filter L2event.shared) : A.Mirrors spare net' { w with log := log } where
  link := by
    have hlink : net'.link A.acl = net.link A.acl := by rw [AclNet.link, AclNet.link, hl2cap, hacls]
    rw [hlink, h.link]
  told := htold
  standing := h.standing.of_same htable (fun b => by rw [hacls]) (by rw [hacls]) (by rw [hacls])
  seats := fun i p hi => ⟨(congrFun howner p).trans (h.seats i p hi).owner, (h.seats i p hi).made, (h.seats i p hi).plain⟩
  held := by
    rw [hacls]
    exact h.held

theorem Mirrors.record (h : A.Mirrors spare net w) (e : L2event) :
    A.Mirrors spare (net.record (.l2cap e)) (w.record e) := by
  refine h.of_log rfl rfl rfl rfl ?_
  rw [AclNet.record, sharedLog_append, h.told]
  exact (List.filter_append ..).symm

theorem Mirrors.call {host : NetHost} {host' : L2capHost} (hh : A.HostsAgree host host') (h : A.Mirrors spare net w)
    (p : Nat) (c : L2capCallback) : A.Mirrors spare (net.call host p c) (w.call host' p c) ∧
      ∀ i q, w.clients i = some q → (w.call host' p c).clients i = some q :=
  hh.react c (h.record (.callback p c))

theorem Mirrors.connected {host : NetHost} {host' : L2capHost} (hh : A.HostsAgree host host')
    (h : A.Mirrors spare net w) (about : Nat) {cb : L2capClientCb} (hcb : cb = .null ∨ ∃ cmd f, cb = .client cmd f)
    (reply : Option ConnectionResponse) (userdata : Nat) :
    A.Mirrors spare (net.connected host about cb reply userdata) (Bte.connected host' w about cb none reply userdata) ∧
      ∀ i q, w.clients i = some q → (Bte.connected host' w about cb none reply userdata).clients i = some q := by
  have hrecord := h.record (.connectCb about cb reply)
  obtain rfl | ⟨cmd, f, rfl⟩ := hcb
  · exact ⟨hrecord, fun _ _ hi => hi⟩
  · exact hrecord.call hh about _

/-- What a link did, done to the net. -/
theorem Mirrors.setLink (h : A.Mirrors spare net w) {v : L2capLink} {n : Nat}
    (hseats : ∀ i p, v.clients i = some p → A.Seat net v p) (hheld : (v.used + n : Int) < (net.acls A.acl).refCount) :
    A.Mirrors n (net.setLink A.acl v) (v.after w.log) where
  link := by
    simp only [AclNet.link, AclNet.setLink, AclNet.modifyAcl, Function.update_self, L2capLink.after]
  told := by
    have hlog : (net.setLink A.acl v).sharedLog = { net with log := net.log ++ v.log.map NetEvent.l2cap }.sharedLog := rfl
    rw [hlog, sharedLog_append, filterMap_l2cap, h.told]
    exact (List.filter_append ..).symm
  standing := by
    have hmodify := h.standing.modifyAcl A.acl (f := fun acl => { acl with clients := v.clients }) (fun _ => rfl)
      (fun _ => rfl) fun _ => rfl
    exact ⟨hmodify.connHandle, hmodify.ready, hmodify.found⟩
  seats := fun i p hi => ⟨(hseats i p hi).owner, (hseats i p hi).made, (hseats i p hi).plain⟩
  held := by
    have hused : (v.after w.log).used = v.used := rfl
    rw [hused]
    simpa only [AclNet.setLink, AclNet.modifyAcl, Function.update_self] using hheld

theorem Mirrors.after_log (h : A.Mirrors spare net w) : (net.link A.acl).after w.log = w := by
  rw [h.link]
  simp only [L2capLink.after, List.append_nil]

/-- A channel is changed, and calls no other function. -/
theorem Mirrors.modify (h : A.Mirrors spare net w) (p : Nat) {f : L2cap → L2cap}
    (hf : ∀ l : L2cap, l.Plain → (f l).Plain) :
    A.Mirrors spare { net with l2cap := net.l2cap.modify p f } (w.modify p f) where
  link := by
    have hmodify : AclNet.link { net with l2cap := net.l2cap.modify p f } A.acl = (net.link A.acl).modify p f := rfl
    rw [hmodify, h.link]
    rfl
  told := h.told
  standing := ⟨h.standing.connHandle, h.standing.ready, h.standing.found⟩
  seats := fun i q hi => by
    have hq := h.seats i q hi
    refine ⟨hq.owner, hq.made, ?_⟩
    simp only [L2capLink.modify, Function.update_apply]
    split
    · rename_i hqp
      exact hf _ (hqp ▸ hq.plain)
    · exact hq.plain
  held := h.held

/-- References to the ACL are taken or given back. -/
theorem Mirrors.refs (h : A.Mirrors spare net w) {f : Int → Int} {n : Nat}
    (hf : (w.used + n : Int) < f (net.acls A.acl).refCount) :
    A.Mirrors n (net.modifyAcl A.acl fun acl => { acl with refCount := f acl.refCount }) w where
  link := by
    have hlink : (net.modifyAcl A.acl fun acl => { acl with refCount := f acl.refCount }).link A.acl = net.link A.acl := by
      simp only [AclNet.link, AclNet.modifyAcl, Function.update_self]
    rw [hlink, h.link]
  told := h.told
  standing := h.standing.modifyAcl A.acl (fun _ => rfl) (fun _ => rfl) fun _ => rfl
  seats := fun i p hi => ⟨(h.seats i p hi).owner, (h.seats i p hi).made, (h.seats i p hi).plain⟩
  held := by
    simpa only [AclNet.modifyAcl, Function.update_self] using hf

theorem Mirrors.bteAclRef (h : A.Mirrors spare net w) : A.Mirrors (spare + 1) (net.bteAclRef A.acl) w := by
  have hheld := h.held
  exact h.refs (f := (· + 1)) (by push_cast; omega)

/-- A reference that somebody else has besides goes, and the ACL stays. -/
theorem Mirrors.bteAclUnref (h : A.Mirrors (spare + 1) net w) : A.Mirrors spare (net.bteAclUnref A.acl) w := by
  have hheld := h.held
  have hlast : ¬ (net.acls A.acl).refCount = 1 := by
    push_cast at hheld
    omega
  unfold AclNet.bteAclUnref
  simp only [if_neg hlast]
  exact h.refs (f := (· - 1)) (by push_cast at hheld; omega)

theorem clients_remove (w : L2capLink) (p : Nat) :
    (aclL2capRemoveClient w p).clients = fun i => if w.clients i = some p then none else w.clients i := by
  unfold aclL2capRemoveClient
  simp only
  split <;> rfl

theorem channels_remove (w : L2capLink) (p : Nat) : (aclL2capRemoveClient w p).channels = w.channels := by
  unfold aclL2capRemoveClient
  simp only
  split <;> rfl

theorem allocated_remove (w : L2capLink) (p : Nat) : (aclL2capRemoveClient w p).allocated = w.allocated := by
  unfold aclL2capRemoveClient
  simp only
  split <;> rfl

theorem remove_after (w : L2capLink) (p : Nat) (log : List L2event) :
    aclL2capRemoveClient (w.after log) p = (aclL2capRemoveClient w p).after log := by
  have hclients : (w.after log).clients = w.clients := rfl
  unfold aclL2capRemoveClient
  simp only [hclients]
  by_cases hnone : ((List.finRange 4).all fun i => (if w.clients i = some p then none else w.clients i).isNone) = true
  · simp only [if_pos hnone, L2capLink.after, L2capLink.record, List.append_assoc]
  · simp only [if_neg hnone, L2capLink.after]

theorem mem_of_remove {w : L2capLink} {p q : Nat} {i : Fin 4} (h : (aclL2capRemoveClient w p).clients i = some q) :
    w.clients i = some q := by
  rw [clients_remove] at h
  simp only at h
  split at h
  · cases h
  · exact h

theorem used_congr {v w : L2capLink} (h : v.clients = w.clients) : v.used = w.used := by
  unfold L2capLink.used
  rw [h]

theorem used_remove_le (w : L2capLink) (p : Nat) : (aclL2capRemoveClient w p).used ≤ w.used := by
  refine Finset.card_le_card (Finset.monotone_filter_right _ fun i _ hi => ?_)
  obtain ⟨q, hq⟩ := Option.isSome_iff_exists.1 hi
  exact Option.isSome_iff_exists.2 ⟨q, mem_of_remove hq⟩

theorem used_remove_lt {w : L2capLink} {p : Nat} {i : Fin 4} (h : w.clients i = some p) :
    (aclL2capRemoveClient w p).used < w.used := by
  refine Finset.card_lt_card (Finset.ssubset_iff_subset_ne.2
    ⟨Finset.monotone_filter_right _ fun j _ hj => ?_, fun heq => ?_⟩)
  · obtain ⟨q, hq⟩ := Option.isSome_iff_exists.1 hj
    exact Option.isSome_iff_exists.2 ⟨q, mem_of_remove hq⟩
  · have hi : i ∈ Finset.univ.filter fun i => (w.clients i).isSome := by simp [h]
    rw [← heq] at hi
    simp [clients_remove, h] at hi

theorem Mirrors.mono (h : A.Mirrors spare net w) {n : Nat} (hn : n ≤ spare) : A.Mirrors n net w where
  link := h.link
  told := h.told
  standing := h.standing
  seats := h.seats
  held := by
    have hheld := h.held
    have hle : (n : Int) ≤ spare := by exact_mod_cast hn
    omega

/-- The last channel of an ACL disconnects it, which is a command to the controller. -/
theorem Mirrors.mayDisconnect (h : A.Mirrors spare net w) (c : Prop) [Decidable c] :
    A.Mirrors spare (if c then net.bteAclDisconnect A.acl else net) w := by
  unfold AclNet.bteAclDisconnect
  split
  · split
    · exact h
    · exact h.of_log rfl rfl rfl rfl h.told
  · exact h

/-- A channel that gives back its last reference gives back one to the ACL, which others have too. -/
theorem Mirrors.unref (h : A.Mirrors spare net w) {p n : Nat} (hn : n ≤ spare) (hlast : (w.channels p).refCount = 1 →
    net.aclOf p = A.acl ∧ ((aclL2capRemoveClient w p).used + (n + 1 : Nat) : Int) < (net.acls A.acl).refCount) :
    A.Mirrors n (net.bteL2capUnref p) (bteL2capUnref w p) := by
  have hmodify := h.modify p (f := fun l2cap => { l2cap with refCount := l2cap.refCount - 1 }) fun l hl =>
    ⟨hl.clientCb, hl.stateChangedCb⟩
  have hcount : (net.l2cap.channels p).refCount = (w.channels p).refCount := by rw [h.channels]
  unfold AclNet.bteL2capUnref Bte.bteL2capUnref
  rw [hcount]
  simp only
  by_cases hone : (w.channels p).refCount = 1
  · obtain ⟨howner, hheld⟩ := hlast hone
    rw [if_pos hone, if_pos hone, howner]
    generalize hnet : { net with l2cap := net.l2cap.modify p fun l2cap =>
      { l2cap with refCount := l2cap.refCount - 1 } } = net' at hmodify ⊢
    generalize hw : (w.modify p fun l2cap => { l2cap with refCount := l2cap.refCount - 1 }) = w' at hmodify ⊢
    have hremove : (aclL2capRemoveClient (net'.link A.acl) p).after w'.log = aclL2capRemoveClient w' p := by
      rw [← remove_after, hmodify.after_log]
    have hclients : (net'.link A.acl).clients = w'.clients := hmodify.clients
    have hchannels : (net'.link A.acl).channels = w'.channels := hmodify.channels
    have hallocated : (net'.link A.acl).allocated = w'.allocated := hmodify.allocated
    have hlinked := hmodify.setLink (v := aclL2capRemoveClient (net'.link A.acl) p) (n := n + 1)
      (fun i q hi => by
        have hq := hmodify.seats i q (hclients ▸ mem_of_remove hi)
        refine ⟨hq.owner, ?_, ?_⟩
        · rw [allocated_remove, hallocated]
          exact hq.made
        · rw [channels_remove, hchannels]
          exact hq.plain) ?_
    · rw [hremove] at hlinked
      exact (hlinked.mayDisconnect _).bteAclUnref
    · have hused : (aclL2capRemoveClient (net'.link A.acl) p).used = (aclL2capRemoveClient w p).used := by
        refine used_congr ?_
        rw [clients_remove, clients_remove, hclients, ← hw]
        rfl
      rw [hused, ← hnet]
      exact hheld
  · rw [if_neg hone, if_neg hone]
    exact hmodify.mono hn

theorem Mirrors.request {host : NetHost} {host' : L2capHost} (hh : A.HostsAgree host host') (h : A.Mirrors spare net w)
    {i : Fin 4} {p : Nat} (hi : w.clients i = some p) :
    (net.l2capConnectionRequest host p).1 = (Bte.l2capConnectionRequest host' w p).1 ∧
      A.Mirrors spare (net.l2capConnectionRequest host p).2 (Bte.l2capConnectionRequest host' w p).2 ∧
      (Bte.l2capConnectionRequest host' w p).2.clients = w.clients := by
  have hnull : ((net.link A.acl).channels p).stateChangedCb = .null := by
    rw [h.link]
    exact (h.seats i p hi).plain.stateChangedCb
  have hsame : { host.forAcl (net.acls A.acl) with react := host'.react } = host' := by
    rw [hh.same, NetHost.forAcl, h.standing.connHandle]
  obtain ⟨heq, hkept⟩ :=
    l2capConnectionRequest_after (host.forAcl (net.acls A.acl)) (net.link A.acl) p w.log host'.react hnull
  rw [h.after_log, hsame] at heq
  have hclients : (net.link A.acl).clients = w.clients := h.clients
  have hchannels : (net.link A.acl).channels = w.channels := h.channels
  have hnet : net.l2capConnectionRequest host p =
      ((Bte.l2capConnectionRequest (host.forAcl (net.acls A.acl)) (net.link A.acl) p).1,
      net.setLink A.acl (Bte.l2capConnectionRequest (host.forAcl (net.acls A.acl)) (net.link A.acl) p).2) := by
    rw [AclNet.l2capConnectionRequest, (h.seats i p hi).owner]
  rw [hnet, heq]
  refine ⟨rfl, h.setLink (fun j q hj => ?_) ?_, hkept.clients.trans hclients⟩
  · rw [hkept.clients, hclients] at hj
    have hq := h.seats j q hj
    have hplain := hq.plain
    rw [← hchannels] at hplain
    refine ⟨hq.owner, ?_, (hkept.clientCb q).symm ▸ hplain.clientCb, (hkept.stateChangedCb q).trans hplain.stateChangedCb⟩
    rw [hkept.allocated]
    exact h.allocated ▸ hq.made
  · rw [used_congr (hkept.clients.trans hclients)]
    exact h.held

theorem Mirrors.unref_tabled (h : A.Mirrors spare net w) {i : Fin 4} {p : Nat} (hi : w.clients i = some p) :
    A.Mirrors spare (net.bteL2capUnref p) (Bte.bteL2capUnref w p) := by
  refine h.unref le_rfl fun _ => ⟨(h.seats i p hi).owner, ?_⟩
  have hheld := h.held
  have hlt := used_remove_lt hi
  push_cast
  omega

/-- The reply that a connection has failed. -/
theorem Mirrors.refuse {host : NetHost} {host' : L2capHost} (hh : A.HostsAgree host host') (h : A.Mirrors spare net w)
    {i : Fin 4} {p : Nat} (hi : w.clients i = some p) :
    A.Mirrors spare (net.refuse host p) (Bte.bteL2capUnref (Bte.connected host' w p (w.channels p).clientCb none
      (some ⟨0, 0, connRespResErrResource, connRespStatusNoInfo⟩) (w.channels p).userdata) p) := by
  have hcall := h.connected hh p (h.seats i p hi).plain.clientCb (some ⟨0, 0, connRespResErrResource, connRespStatusNoInfo⟩)
    (w.channels p).userdata
  rw [AclNet.refuse, h.channels]
  exact hcall.1.unref_tabled (hcall.2 i p hi)

/-! ## The turn of a channel -/

theorem Mirrors.connectedTurn {host : NetHost} {host' : L2capHost} (hh : A.HostsAgree host host') (h : A.Mirrors spare net w)
    {i : Fin 4} {p : Nat} (hi : w.clients i = some p) (status : UInt8) :
    A.Mirrors spare (net.aclL2capConnectedCb host p status) (Bte.aclL2capConnectedCb host' w p status.toNat) := by
  have hzero : status.toNat = 0 ↔ status = 0 := UInt8.toNat_inj (b := 0)
  unfold AclNet.aclL2capConnectedCb Bte.aclL2capConnectedCb
  by_cases hs : status = 0
  · obtain ⟨hok, hrequest, hclients⟩ := h.request hh hi
    rw [if_neg (not_not.2 hs), if_neg (not_not.2 (hzero.2 hs))]
    simp only [hok]
    split
    · exact hrequest
    · exact hrequest.refuse hh (hclients ▸ hi)
  · rw [if_pos hs, if_pos (mt hzero.1 hs)]
    simp only [Bool.false_eq_true, if_false]
    exact h.refuse hh hi

/-- The link notes what `cmd_data` held. -/
theorem Mirrors.noted (h : A.Mirrors spare net w) (p : Nat) (cb : L2capClientCb) (reply : ConfigureReply) (stored : Bool) :
    A.Mirrors spare net (w.record (.configureCb p cb reply stored)) := by
  refine h.of_log rfl rfl rfl rfl ?_
  rw [h.told, List.filter_append]
  exact (List.append_nil _).symm

/-- No configuration is under way. -/
theorem configureLost_eq {host : NetHost} {p : Nat} (hnone : ¬ ((net.l2cap.channels p).state = .waitConfigReqRsp ∧
    ∃ cmd f, (net.l2cap.channels p).clientCb = .client cmd f)) : net.configureLost host p = net := by
  unfold AclNet.configureLost
  simp only
  split
  · rename_i hs hcb
    exact absurd ⟨hs, _, _, hcb⟩ hnone
  · rfl

theorem Mirrors.configureLost {host : NetHost} {host' : L2capHost} (hh : A.HostsAgree host host')
    (h : A.Mirrors spare net w) {i : Fin 4} {p : Nat} (hi : w.clients i = some p) :
    let w' := if (w.channels p).state = .waitConfigReqRsp ∧ (w.channels p).clientCb ≠ .null then
        configured host' w (w.channels p).clientCb p ⟨0xfffffff, 0xfffffff, .zero⟩ (w.channels p).cmdUserdata true
      else w
    A.Mirrors spare (net.configureLost host p) w' ∧ w'.clients i = some p := by
  have hchannels := h.channels
  obtain hnull | ⟨cmd, f, hclient⟩ := (h.seats i p hi).plain.clientCb
  · have hnet : net.configureLost host p = net := configureLost_eq fun hc => by simp [hchannels, hnull] at hc
    simp only [hnet, hnull, ne_eq, not_true_eq_false, and_false, if_false]
    exact ⟨h, hi⟩
  · by_cases hs : (w.channels p).state = .waitConfigReqRsp
    · have hnet : net.configureLost host p =
          net.call host p (.configure f p ⟨0xfffffff, 0xfffffff, .zero⟩ (w.channels p).cmdUserdata) := by
        simp only [AclNet.configureLost, hchannels, hs, hclient]
      have hcall := (h.noted p (.client cmd f) ⟨0xfffffff, 0xfffffff, .zero⟩ true).call hh p
        (.configure f p ⟨0xfffffff, 0xfffffff, .zero⟩ (w.channels p).cmdUserdata)
      simp only [hnet, hs, hclient, ne_eq, reduceCtorEq, not_false_eq_true, and_self, if_true]
      exact ⟨hcall.1, hcall.2 i p hi⟩
    · have hnet : net.configureLost host p = net := configureLost_eq fun hc => hs (hchannels ▸ hc.1)
      simp only [hnet, hs, false_and, if_false]
      exact ⟨h, hi⟩

theorem Mirrors.disconnectTurn {host : NetHost} {host' : L2capHost} (hh : A.HostsAgree host host')
    (h : A.Mirrors spare net w) {i : Fin 4} {p : Nat} (hi : w.clients i = some p) (reason : UInt8) :
    A.Mirrors spare (net.l2capDisconnectCb host p reason) (Bte.l2capDisconnectCb host' w p reason.toNat) := by
  obtain ⟨hconf, hi'⟩ := h.configureLost hh hi
  unfold AclNet.l2capDisconnectCb Bte.l2capDisconnectCb AclNet.connectLost
  simp only at hconf hi' ⊢
  generalize net.configureLost host p = net' at hconf ⊢
  generalize (if (w.channels p).state = .waitConfigReqRsp ∧ (w.channels p).clientCb ≠ .null then
      configured host' w (w.channels p).clientCb p ⟨0xfffffff, 0xfffffff, .zero⟩ (w.channels p).cmdUserdata true
    else w) = w' at hconf hi' ⊢
  rw [hconf.channels]
  split
  · exact hconf.refuse hh hi'
  · cases (w'.channels p).aclDisconnectCb with
    | none => exact hconf
    | some f => exact (hconf.call hh p _).1

/-! ## The loops -/

theorem Mirrors.forClients (h : A.Mirrors spare net w) {f : AclNet → Nat → AclNet} {g : L2capLink → Nat → L2capLink}
    (hturn : ∀ {net : AclNet} {w : L2capLink} {i : Fin 4} {p : Nat}, A.Mirrors spare net w → w.clients i = some p →
      A.Mirrors spare (f net p) (g w p)) :
    A.Mirrors spare (net.forClients A.acl f) (w.forClients g) := by
  refine List.foldl_rel h fun i _ net w hm => ?_
  unfold AclNet.turn
  rw [hm.clients]
  cases hi : w.clients i with
  | none => exact hm
  | some p => exact hturn hm hi

theorem Mirrors.announcing (h : A.Mirrors spare net w) (l : List Nat) :
    A.Mirrors spare { net with announcing := l } w :=
  h.of_log rfl rfl rfl rfl h.told

/-- **The channels of an ACL are told the same in both models that it is connected**, or that it is not. -/
theorem Mirrors.aclConnected {host : NetHost} {host' : L2capHost} (hh : A.HostsAgree host host')
    (h : A.Mirrors spare net w) (status : UInt8) :
    A.Mirrors spare (net.aclConnectedCb host A.acl status) (Bte.aclConnectedCb host' w status.toNat) := by
  have hturn : ∀ {net : AclNet} {w : L2capLink} {i : Fin 4} {p : Nat}, A.Mirrors (spare + 1) net w → w.clients i = some p →
      A.Mirrors (spare + 1) (net.aclL2capConnectedCb host p status) (Bte.aclL2capConnectedCb host' w p status.toNat) :=
    fun hm hi => hm.connectedTurn hh hi status
  have href := h.bteAclRef
  unfold AclNet.aclConnectedCb Bte.aclConnectedCb
  simp only
  refine Mirrors.bteAclUnref ?_
  split
  · exact ((href.announcing _).forClients hturn).announcing _
  · exact href.forClients hturn

/-- **The channels of an ACL are told the same in both models that it is gone.** -/
theorem Mirrors.aclDisconnected {host : NetHost} {host' : L2capHost} (hh : A.HostsAgree host host')
    (h : A.Mirrors spare net w) (reason : UInt8) :
    A.Mirrors spare (net.aclDisconnectedCb host A.acl reason) (Bte.aclDisconnectedCb host' w reason.toNat) :=
  h.forClients fun hm hi => hm.disconnectTurn hh hi reason

/-! ## New channels -/

theorem keeps_unref {i : Fin 4} {p q : Nat} (hne : q ≠ p) (hi : w.clients i = some q) :
    (Bte.bteL2capUnref w p).clients i = some q := by
  unfold Bte.bteL2capUnref
  simp only
  split
  · have hclients : (w.modify p fun l2cap => { l2cap with refCount := l2cap.refCount - 1 }).clients i = some q := hi
    rw [clients_remove]
    simp only [hclients]
    exact if_neg fun h => hne (Option.some.inj h)
  · exact hi

/-- The channel that `bte_l2cap_new` makes. -/
theorem Mirrors.bteL2capNew (h : A.Mirrors spare net w) : A.Mirrors spare net.bteL2capNew (w.alloc true).2 where
  link := by
    have hnew : net.bteL2capNew.link A.acl = { ((net.link A.acl).alloc true).2 with log := [] } := rfl
    rw [hnew, h.link]
    rfl
  told := by
    have hallocated := h.allocated
    have hlog : net.bteL2capNew.sharedLog =
      { net with log := net.log ++ [NetEvent.l2cap (.created net.l2cap.allocated true)] }.sharedLog := rfl
    rw [hlog, sharedLog_append, h.told, hallocated]
    exact (List.filter_append ..).symm
  standing := ⟨h.standing.connHandle, h.standing.ready, h.standing.found⟩
  seats := fun i p hi => by
    have hp := h.seats i p hi
    refine ⟨hp.owner, Nat.lt_succ_of_lt hp.made, ?_⟩
    have hchannel : (w.alloc true).2.channels p = w.channels p := Function.update_of_ne (ne_of_lt hp.made) ..
    rw [hchannel]
    exact hp.plain
  held := h.held

theorem Mirrors.takeAcl (h : A.Mirrors spare net w) (p : Nat) (auth : Bool) (found : Option Acl) :
    A.Mirrors spare (net.takeAcl p A.acl auth found) w where
  link := h.link
  told := by
    have hlog : (net.takeAcl p A.acl auth found).sharedLog = { net with log := net.log ++
      [NetEvent.joined ⟨p, A.acl, auth, found, decide (A.acl ∈ net.announcing)⟩] }.sharedLog := rfl
    rw [hlog, sharedLog_append, h.told]
    exact List.append_nil _
  standing := ⟨h.standing.connHandle, h.standing.ready, h.standing.found⟩
  seats := fun i q hi => by
    have hq := h.seats i q hi
    refine ⟨?_, hq.made, hq.plain⟩
    simp only [AclNet.takeAcl, Function.update_apply]
    split
    · rfl
    · exact hq.owner
  held := h.held

/-- `startChannel` on one link: the rest of `bte_l2cap_new_outgoing`. -/
def startOn (host : L2capHost) (w : L2capLink) (p : Nat) (ready : Bool) (call : OutgoingCall) : L2capLink :=
  match aclL2capAddClient w p with
  | none => Bte.connected host (Bte.bteL2capUnref w p) p (.client .connect call.callback) none none call.userdata
  | some w =>
    let w := w.modify p fun l2cap => { l2cap with
      userdata := call.userdata, psm := call.psm, clientCb := .client .connect call.callback }
    if ready then
      let r := Bte.l2capConnectionRequest host w p
      if r.1 then r.2
      else Bte.connected host (Bte.bteL2capUnref r.2 p) p (.client .connect call.callback) none none call.userdata
    else w

theorem newOutgoing_eq (host : L2capHost) (w : L2capLink) (ready : Bool) (call : OutgoingCall) :
    Bte.bteL2capNewOutgoing host w call.psm ready (.client .connect call.callback) call.userdata =
      startOn host (w.alloc true).2 w.allocated ready call := rfl

theorem used_update (w : L2capLink) (i : Fin 4) (p : Nat) :
    { w with clients := Function.update w.clients i (some p) }.used ≤ w.used + 1 := by
  have hsub : (Finset.univ.filter fun j => (Function.update w.clients i (some p) j).isSome) ⊆
      insert i (Finset.univ.filter fun j => (w.clients j).isSome) := by
    intro j hj
    simp only [Finset.mem_filter, Finset.mem_univ, true_and, Finset.mem_insert, Function.update_apply] at hj ⊢
    split at hj
    · exact .inl ‹_›
    · exact .inr hj
  exact (Finset.card_le_card hsub).trans (Finset.card_insert_le ..)

/-- The channel takes a place in the table. -/
theorem Mirrors.sit (h : A.Mirrors (spare + 1) net w) {p : Nat} (howner : net.aclOf p = A.acl) (hmade : p < w.allocated)
    (hnull : (w.channels p).stateChangedCb = .null) (i : Fin 4) {f : L2cap → L2cap}
    (hclient : ∀ l, ∃ cmd g, (f l).clientCb = .client cmd g) (hstate : ∀ l, (f l).stateChangedCb = l.stateChangedCb) :
    A.Mirrors spare
      (net.setLink A.acl ({ net.link A.acl with clients := Function.update w.clients i (some p) }.modify p f))
      ({ w with clients := Function.update w.clients i (some p) }.modify p f) := by
  have hafter : ({ net.link A.acl with clients := Function.update w.clients i (some p) }.modify p f).after w.log =
      { (net.link A.acl).after w.log with clients := Function.update w.clients i (some p) }.modify p f := rfl
  have hchannels : (net.link A.acl).channels = w.channels := h.channels
  have hallocated : (net.link A.acl).allocated = w.allocated := h.allocated
  rw [h.after_log] at hafter
  rw [← hafter]
  refine h.setLink (fun j q hj => ?_) ?_
  · have hold : q ≠ p → w.clients j = some q := fun hq => by
      simp only [L2capLink.modify, Function.update_apply] at hj
      split at hj
      · exact absurd (Option.some.inj hj).symm hq
      · exact hj
    refine ⟨?_, ?_, ?_⟩
    · by_cases hq : q = p
      · rw [hq, howner]
      · exact (h.seats j q (hold hq)).owner
    · show q < (net.link A.acl).allocated
      rw [hallocated]
      by_cases hq : q = p
      · rwa [hq]
      · exact (h.seats j q (hold hq)).made
    · simp only [L2capLink.modify, Function.update_apply, hchannels]
      split
      · exact ⟨.inr (hclient _), (hstate _).trans hnull⟩
      · exact (h.seats j q (hold ‹_›)).plain
  · have hheld := h.held
    have hle := used_update w i p
    have hused : ({ net.link A.acl with clients := Function.update w.clients i (some p) }.modify p f).used =
        { w with clients := Function.update w.clients i (some p) }.used := rfl
    rw [hused]
    push_cast at hheld
    omega

theorem Mirrors.unrefNew (h : A.Mirrors (spare + 1) net w) {p : Nat} (howner : net.aclOf p = A.acl) :
    A.Mirrors spare (net.bteL2capUnref p) (Bte.bteL2capUnref w p) := by
  refine h.unref (Nat.le_succ _) fun _ => ⟨howner, ?_⟩
  have hheld := h.held
  have hle := used_remove_le w p
  push_cast at hheld ⊢
  omega

theorem Mirrors.startChannel {host : NetHost} {host' : L2capHost} (hh : A.HostsAgree host host')
    (h : A.Mirrors (spare + 1) net w) {p : Nat} (howner : net.aclOf p = A.acl) (hmade : p < w.allocated)
    (hnull : (w.channels p).stateChangedCb = .null) (call : OutgoingCall) :
    A.Mirrors spare (net.startChannel host p A.acl call) (startOn host' w p A.ready call) ∧
      ∀ i q, w.clients i = some q → q ≠ p → (startOn host' w p A.ready call).clients i = some q := by
  have hclients : (net.link A.acl).clients = w.clients := h.clients
  have hcb : L2capClientCb.client .connect call.callback = .null ∨
    ∃ cmd f, L2capClientCb.client .connect call.callback = .client cmd f := .inr ⟨_, _, rfl⟩
  unfold AclNet.startChannel startOn aclL2capAddClient
  rw [hclients]
  cases hslot : (List.finRange 4).find? fun i => (w.clients i).isNone with
  | none =>
    simp only [Option.map_none]
    have hcall := (h.unrefNew howner).connected hh p hcb none call.userdata
    exact ⟨hcall.1, fun i q hi hq => hcall.2 i q (keeps_unref hq hi)⟩
  | some k =>
    simp only [Option.map_some]
    have hfree : w.clients k = none := by simpa using List.find?_some hslot
    have hsit := h.sit howner hmade hnull k (f := fun l2cap => { l2cap with
      userdata := call.userdata, psm := call.psm, clientCb := .client .connect call.callback })
      (fun _ => ⟨_, _, rfl⟩) fun _ => rfl
    have hseat : ∀ j q, w.clients j = some q → Function.update w.clients k (some p) j = some q := fun j q hj => by
      have hjk : j ≠ k := fun he => by simp [he, hfree] at hj
      rw [Function.update_of_ne hjk, hj]
    generalize hnet : net.setLink A.acl _ = net' at hsit ⊢
    generalize hw : L2capLink.modify _ p _ = w' at hsit ⊢
    have htable : w'.clients = Function.update w.clients k (some p) := by rw [← hw]; rfl
    have hready : (net'.acls A.acl).ready = A.ready := hsit.standing.ready
    have hiff : ((net'.acls A.acl).connHandle ≠ bteConnHandleInvalid ∧
        (net'.acls A.acl).authenticationCompleted = (net'.acls A.acl).authenticationRequired) ↔ A.ready = true := by
      rw [← hready, Acl.ready, decide_eq_true_iff]
    have hkept : ∀ j q, w.clients j = some q → w'.clients j = some q := fun j q hj => by
      rw [htable]
      exact hseat j q hj
    by_cases hr : A.ready = true
    · obtain ⟨hok, hrequest, hsame⟩ := hsit.request hh (i := k) (p := p) (by rw [htable, Function.update_self])
      simp only [if_pos (hiff.2 hr), if_pos hr, hok]
      split
      · exact ⟨hrequest, fun j q hj _ => hsame.symm ▸ hkept j q hj⟩
      · have hunref := hrequest.unref_tabled (i := k) (p := p) (by rw [hsame, htable, Function.update_self])
        have hcall := hunref.connected hh p hcb none call.userdata
        exact ⟨hcall.1, fun j q hj hq => hcall.2 j q (keeps_unref hq (hsame.symm ▸ hkept j q hj))⟩
    · simp only [if_neg (mt hiff.1 hr), if_neg hr]
      exact ⟨hsit, fun j q hj _ => hkept j q hj⟩

/-- **A channel to the ACL's device is opened alike in both models**, where no authentication is asked for. -/
theorem Mirrors.newOutgoing {host : NetHost} {host' : L2capHost} (hh : A.HostsAgree host host')
    (h : A.Mirrors spare net w) {call : OutgoingCall} (haddress : call.address = A.address) (hauth : call.auth = false) :
    A.Mirrors spare (net.bteL2capNewOutgoing host call)
        (Bte.bteL2capNewOutgoing host' w call.psm A.ready (.client .connect call.callback) call.userdata) ∧
      ∀ i q, w.clients i = some q → (Bte.bteL2capNewOutgoing host' w call.psm A.ready (.client .connect call.callback)
        call.userdata).clients i = some q := by
  have hnew := h.bteL2capNew
  have hfound : net.bteL2capNew.bteAclGetForAddress call.address = some A.acl := haddress ▸ hnew.standing.found
  have htaken := hnew.bteAclRef.takeAcl net.l2cap.allocated call.auth (some (net.bteL2capNew.acls A.acl))
  have hp : net.l2cap.allocated = w.allocated := h.allocated
  have hstart := htaken.startChannel hh (p := net.l2cap.allocated) (by simp [AclNet.takeAcl]) (hp ▸ Nat.lt_succ_self _)
    (by rw [hp]; simp [L2capLink.alloc, L2capLink.record, Bte.bteL2capNew]) call
  have hnet : net.bteL2capNewOutgoing host call =
      ((net.bteL2capNew.bteAclRef A.acl).takeAcl net.l2cap.allocated A.acl call.auth
      (some (net.bteL2capNew.acls A.acl))).startChannel host net.l2cap.allocated A.acl call := by
    simp only [AclNet.bteL2capNewOutgoing, hfound, hauth, Bool.false_eq_true, if_false]
  rw [hnet, newOutgoing_eq, ← hp]
  exact ⟨hstart.1, fun i q hi => hstart.2 i q hi (ne_of_lt (hp ▸ (h.seats i q hi).made))⟩

end Pieces

/-! ## Clients -/

/-- A channel that a callback opens on the ACL. -/
structure Opening where
  psm : Nat
  callback : Nat
  userdata : Nat

def Opening.ofNet (A : OneAcl) (hci : Hci) (o : Opening) : OutgoingCall :=
  ⟨hci, A.address, o.psm, false, o.callback, o.userdata⟩

def Opening.ofLink (A : OneAcl) (o : Opening) : L2capCall := .newOutgoing o.psm A.ready o.callback o.userdata

/-- The client of the net; what it opens depends on what it is told. -/
def netClient (A : OneAcl) (hci : Hci) (opens : L2capCallback → List Opening) : NetClient :=
  fun c _ => (opens c).map (Opening.ofNet A hci)

/-- The same client of the link. -/
def linkClient (A : OneAcl) (opens : L2capCallback → List Opening) : L2capClient :=
  fun c _ => (opens c).map (Opening.ofLink A)

theorem Mirrors.opens {A : OneAcl} {host : NetHost} {host' : L2capHost} (hh : A.HostsAgree host host') (hci : Hci)
    {spare : Nat} : ∀ (l : List Opening) {net : AclNet} {w : L2capLink}, A.Mirrors spare net w →
      A.Mirrors spare ((l.map (Opening.ofNet A hci)).foldl (fun net call => net.bteL2capNewOutgoing host call) net)
          ((l.map (Opening.ofLink A)).foldl (L2capCall.apply host') w) ∧
        ∀ i p, w.clients i = some p → ((l.map (Opening.ofLink A)).foldl (L2capCall.apply host') w).clients i = some p
  | [], _, _, h => ⟨h, fun _ _ hi => hi⟩
  | o :: l, _, _, h => by
    have hfirst := h.newOutgoing hh (rfl : (o.ofNet A hci).address = A.address) rfl
    have hrest := Mirrors.opens hh hci l hfirst.1
    exact ⟨hrest.1, fun i p hi => hrest.2 i p (hfirst.2 i p hi)⟩

/-- **The two models agree on clients that open more channels in their callbacks**, the callbacks of these included. -/
theorem hostsAgree_client (A : OneAcl) (hci : Hci) (host : L2capHost) (opens : L2capCallback → List Opening) :
    ∀ depth : Nat, A.HostsAgree (NetHost.client host (netClient A hci opens) depth)
      (L2capHost.client { host with connHandle := A.connHandle.toNat } (linkClient A opens) depth)
  | 0 => ⟨rfl, fun _ {_ _ _} h => ⟨h, fun _ _ hi => hi⟩⟩
  | depth + 1 => ⟨rfl, fun c {_ _ _} h => h.opens (hostsAgree_client A hci host opens depth) hci (opens c)⟩

/-- **What `acl_connected_cb` and `acl_disconnected_cb` do to the channels of an ACL is the same in both models**, with
clients that open more channels on it in their callbacks, down to any depth. -/
theorem models_agree (A : OneAcl) (hci : Hci) (host : L2capHost) (opens : L2capCallback → List Opening) (depth : Nat)
    {spare : Nat} {net : AclNet} {w : L2capLink} (h : A.Mirrors spare net w) (status reason : UInt8) :
    A.Mirrors spare (net.aclConnectedCb (NetHost.client host (netClient A hci opens) depth) A.acl status)
        (Bte.aclConnectedCb (L2capHost.client { host with connHandle := A.connHandle.toNat } (linkClient A opens) depth) w
          status.toNat) ∧
      A.Mirrors spare (net.aclDisconnectedCb (NetHost.client host (netClient A hci opens) depth) A.acl reason)
        (Bte.aclDisconnectedCb (L2capHost.client { host with connHandle := A.connHandle.toNat } (linkClient A opens) depth) w
          reason.toNat) :=
  ⟨h.aclConnected (hostsAgree_client A hci host opens depth) status,
    h.aclDisconnected (hostsAgree_client A hci host opens depth) reason⟩

/-- A channel waits for an ACL that its user holds too. -/
def heldNet : AclNet :=
  ((AclNet.start (fun _ => none) ⟨8, 8, [], 0, []⟩).bteL2capNewOutgoing (NetHost.client plainHost (fun _ _ => []) 0)
    ⟨0, ⟨1, 2, 3, 4, 5, 6⟩, 1, false, 7, 0⟩).bteAclRef 0

example : ∃ w, (⟨0, ⟨1, 2, 3, 4, 5, 6⟩, bteConnHandleInvalid, false⟩ : OneAcl).Mirrors 0 heldNet w ∧ w.used = 1 := by
  refine ⟨_, mirrors_self ⟨by decide +kernel, by decide +kernel, by decide +kernel⟩ (fun i p hi => ?_)
    (by decide +kernel), by decide +kernel⟩
  have hp : ∀ i : Fin 4, ((heldNet.acls 0).clients i).all (· = 0) = true := by decide +kernel
  have h := hp i
  rw [hi, Option.all_some, decide_eq_true_iff] at h
  subst h
  exact ⟨by decide +kernel, by decide +kernel, .inr ⟨.connect, 7, by decide +kernel⟩, by decide +kernel⟩

end OneAcl

end Bte
