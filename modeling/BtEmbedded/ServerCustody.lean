import Mathlib.Data.List.Pairwise
import BtEmbedded.L2capServer
/-!
# ServerCustody — the references of servers, clients and incoming connections (l2cap_server.c, client.c)

Every reference to a client is somebody's: a user's, a server's or an incoming connection's (`Custody`), so a client is
in its slot as long as it has a server, and a server is in the list as long as it has a reference.  An accept command and
a function that is being asked keep the address of a server without a reference (`Waiting`).
-/
namespace Bte

namespace Serving

/-! ## What the functions change -/

variable {s s' s'' : Serving} {hand : Option Hci}

@[simp] theorem setClient_client (s : Serving) (h h' : Hci) (c : ServingClient) :
    (s.setClient h c).client h' = if h' = h then c else s.client h' := Function.update_apply ..

@[simp] theorem setServer_server (s : Serving) (p p' : Ptr) (v : L2capServer) :
    (s.setServer p v).server p' = if p' = p then v else s.server p' := Function.update_apply ..

/-- The servers of a client. -/
def serversOf (s : Serving) (h : Hci) : Nat := s.servers.countP fun p => (s.server p).hci = h

/-- Every reference is somebody's.  `hand` is the client that the running function has a reference to. -/
structure Custody (hand : Option Hci) (s : Serving) : Prop where
  newest : s.servers.Pairwise (· > ·)
  listed : ∀ p, p ∈ s.servers ↔ (s.server p).refCount ≠ 0
  made : ∀ p, (s.server p).refCount ≠ 0 → p < s.madeServers
  owed : ∀ h, (s.client h).refCount = s.held h + s.serversOf h + s.acls.count h + hand.toList.count h
  slots : ∀ h, (s.client h).refCount ≠ 0 ↔ ∃ i, s.clients i = some h
  once : ∀ i j h, s.clients i = some h → s.clients j = some h → i = j
  madeClient : ∀ h, (s.client h).refCount ≠ 0 → h < s.madeClients
  hook : s.servers ≠ [] → s.handlesConnectionReq = true

/-- The servers whose addresses the library keeps: they were made, for the client that goes with them. -/
structure Waiting (s : Serving) : Prop where
  accepting : ∀ a ∈ s.accepting, (s.client a.1).refCount ≠ 0 ∧ (s.server a.2).hci = a.1 ∧ a.2 < s.madeServers
  asking : ∀ a ∈ s.asking, ∀ p ∈ a.listener.server, (s.server p).hci = a.listener.hci ∧ p < s.madeServers

/-- The references, the lists and the slots are the same. -/
structure Alike (s s' : Serving) : Prop where
  clients : s'.clients = s.clients
  clientRefs : ∀ h, (s'.client h).refCount = (s.client h).refCount
  servers : s'.servers = s.servers
  serverRefs : ∀ p, (s'.server p).refCount = (s.server p).refCount
  serverHci : ∀ p, (s'.server p).hci = (s.server p).hci
  acls : s'.acls = s.acls
  held : s'.held = s.held
  madeClients : s'.madeClients = s.madeClients
  madeServers : s'.madeServers = s.madeServers
  hook : s'.handlesConnectionReq = s.handlesConnectionReq

theorem Alike.refl (s : Serving) : Alike s s :=
  ⟨rfl, fun _ => rfl, rfl, fun _ => rfl, fun _ => rfl, rfl, rfl, rfl, rfl, rfl⟩

theorem Alike.trans (h : Alike s s') (h' : Alike s' s'') : Alike s s'' where
  clients := h'.clients.trans h.clients
  clientRefs x := (h'.clientRefs x).trans (h.clientRefs x)
  servers := h'.servers.trans h.servers
  serverRefs x := (h'.serverRefs x).trans (h.serverRefs x)
  serverHci x := (h'.serverHci x).trans (h.serverHci x)
  acls := h'.acls.trans h.acls
  held := h'.held.trans h.held
  madeClients := h'.madeClients.trans h.madeClients
  madeServers := h'.madeServers.trans h.madeServers
  hook := h'.hook.trans h.hook

theorem Alike.serversOf (h : Alike s s') (c : Hci) : s'.serversOf c = s.serversOf c := by
  rw [Serving.serversOf, Serving.serversOf, h.servers]
  exact List.countP_congr fun p _ => by rw [h.serverHci]

theorem Alike.custody (h : Alike s s') (hc : Custody hand s) : Custody hand s' where
  newest := h.servers ▸ hc.newest
  listed p := by rw [h.servers, h.serverRefs, hc.listed]
  made p hp := by
    rw [h.serverRefs] at hp
    rw [h.madeServers]
    exact hc.made p hp
  owed c := by rw [h.clientRefs, h.held, h.serversOf, h.acls, hc.owed]
  slots c := by rw [h.clientRefs, h.clients, hc.slots]
  once := h.clients ▸ hc.once
  madeClient c hn := by
    rw [h.clientRefs] at hn
    rw [h.madeClients]
    exact hc.madeClient c hn
  hook hn := by
    rw [h.servers] at hn
    rw [h.hook]
    exact hc.hook hn

theorem Alike.waiting (h : Alike s s') (hacc : ∀ a ∈ s'.accepting, a ∈ s.accepting)
    (hask : ∀ a ∈ s'.asking, a ∈ s.asking) (hw : Waiting s) : Waiting s' where
  accepting a ha := by
    rw [h.clientRefs, h.serverHci, h.madeServers]
    exact hw.accepting a (hacc a ha)
  asking a ha p hp := by
    rw [h.serverHci, h.madeServers]
    exact hw.asking a (hask a ha) p hp

theorem alike_setClient {h : Hci} {c : ServingClient} (hc : c.refCount = (s.client h).refCount) :
    Alike s (s.setClient h c) :=
  { Alike.refl s with
    clientRefs := fun h' => by
      rw [setClient_client]
      split
      · rename_i heq
        rw [heq, hc]
      · rfl }

theorem alike_setServer {p : Ptr} {v : L2capServer} (hr : v.refCount = (s.server p).refCount)
    (hh : v.hci = (s.server p).hci) : Alike s (s.setServer p v) :=
  { Alike.refl s with
    serverRefs := fun p' => by
      rw [setServer_server]
      split
      · rename_i heq
        rw [heq, hr]
      · rfl
    serverHci := fun p' => by
      rw [setServer_server]
      split
      · rename_i heq
        rw [heq, hh]
      · rfl }

theorem alike_sendAsync (h : Hci) (taken : Bool) (c : ServingCommand) : Alike s (s.sendAsync h taken c) := by
  unfold sendAsync
  split
  · exact { Alike.refl s with }
  · exact .refl s

theorem alike_writeScanEnable (h : Hci) (mode : UInt8) (taken : Bool) :
    Alike s (s.bteHciWriteScanEnable h mode taken) := by
  unfold bteHciWriteScanEnable
  split
  · have hset : Alike s (s.setClient h { s.client h with scanMode := mode }) := alike_setClient rfl
    exact hset.trans { Alike.refl _ with }
  · exact .refl s

theorem alike_onRequest (h : Hci) (kind : RequestKind) (callback : Option RequestCb) :
    Alike s (s.bteHciOnRequest h kind callback) := by
  have hset : Alike s (s.setClient h { s.client h with
    requestCb := Function.update (s.client h).requestCb kind callback }) := alike_setClient rfl
  exact hset.trans { Alike.refl _ with }

theorem alike_endScan (h : Hci) (taken : Bool) : Alike s (s.endScan h taken) := by
  unfold endScan
  split
  · exact alike_writeScanEnable h _ taken
  · exact .refl s

/-! ## What is kept apart from the references -/

/-- The accept commands and the function that is asked are the same. -/
theorem writeScanEnable_waits (h : Hci) (mode : UInt8) (taken : Bool) :
    (s.bteHciWriteScanEnable h mode taken).accepting = s.accepting ∧
      (s.bteHciWriteScanEnable h mode taken).asking = s.asking ∧
      (s.bteHciWriteScanEnable h mode taken).stopped = s.stopped := by
  unfold bteHciWriteScanEnable
  split <;> exact ⟨rfl, rfl, rfl⟩

/-! ## Clients -/

theorem custody_clientRef {h : Hci} (hc : Custody none s) (hlive : (s.client h).refCount ≠ 0) :
    Custody (some h) (s.bteClientRef h) where
  newest := hc.newest
  listed := hc.listed
  made := hc.made
  owed h' := by
    have ho := hc.owed h'
    rw [bteClientRef, setClient_client]
    split
    · rename_i heq
      subst heq
      simp only [Option.toList_some, List.count_singleton_self]
      simp only [Option.toList_none, List.count_nil] at ho
      exact congrArg (· + 1) ho
    · rename_i hne
      rw [Option.toList_some, List.count_singleton, if_neg (by simpa using Ne.symm hne)]
      exact ho
  slots h' := by
    refine Iff.trans ?_ (hc.slots h')
    rw [bteClientRef, setClient_client]
    split
    · rename_i heq
      subst heq
      exact ⟨fun _ => hlive, fun _ => Nat.succ_ne_zero _⟩
    · rfl
  once := hc.once
  madeClient h' hn := by
    rw [bteClientRef, setClient_client] at hn
    split at hn
    · rename_i heq
      subst heq
      exact hc.madeClient _ hlive
    · exact hc.madeClient h' hn
  hook := hc.hook

/-- A reference more leaves a client that is there where it is. -/
theorem clientRef_live {h h' : Hci} (hlive : (s.client h').refCount ≠ 0) :
    ((s.bteClientRef h).client h').refCount ≠ 0 := by
  rw [bteClientRef, setClient_client]
  split
  · exact Nat.succ_ne_zero _
  · exact hlive

/-- A reference that the running function has is given to its holder. -/
theorem Custody.give {h : Hci} (hc : Custody (some h) s) (hcl : s'.clients = s.clients) (hc' : s'.client = s.client)
    (hs : s'.servers = s.servers) (hsv : s'.server = s.server) (hmc : s'.madeClients = s.madeClients)
    (hms : s'.madeServers = s.madeServers) (hhook : s'.handlesConnectionReq = s.handlesConnectionReq)
    (howed : ∀ h', s'.held h' + s'.acls.count h' = s.held h' + s.acls.count h' + [h].count h') : Custody none s' where
  newest := hs ▸ hc.newest
  listed := by
    rw [hs, hsv]
    exact hc.listed
  made := by
    rw [hsv, hms]
    exact hc.made
  owed h' := by
    have ho := hc.owed h'
    have hw := howed h'
    have hof : s'.serversOf h' = s.serversOf h' := by rw [serversOf, serversOf, hs, hsv]
    rw [hc', hof, Option.toList_none, List.count_nil]
    rw [Option.toList_some] at ho
    omega
  slots := by
    rw [hc', hcl]
    exact hc.slots
  once := hcl ▸ hc.once
  madeClient := by
    rw [hc', hmc]
    exact hc.madeClient
  hook hn := by
    rw [hhook]
    exact hc.hook (hs ▸ hn)

theorem unref_client (h h' : Hci) : ((s.bteClientUnref h).client h').refCount =
    if h' = h then (s.client h).refCount - 1 else (s.client h').refCount := by
  have hset : ((s.setClient h { s.client h with refCount := (s.client h).refCount - 1 }).client h').refCount =
      if h' = h then (s.client h).refCount - 1 else (s.client h').refCount := by
    rw [setClient_client]
    split <;> rfl
  unfold bteClientUnref
  split
  · exact hset
  · exact hset

/-- What giving back a reference to a client leaves alone. -/
structure UnrefSame (s s' : Serving) : Prop where
  servers : s'.servers = s.servers
  server : s'.server = s.server
  acls : s'.acls = s.acls
  asking : s'.asking = s.asking
  held : s'.held = s.held
  madeClients : s'.madeClients = s.madeClients
  madeServers : s'.madeServers = s.madeServers
  hook : s'.handlesConnectionReq = s.handlesConnectionReq
  stopped : s'.stopped = s.stopped

theorem unref_same (s : Serving) (h : Hci) : UnrefSame s (s.bteClientUnref h) := by
  unfold bteClientUnref
  split <;> exact ⟨rfl, rfl, rfl, rfl, rfl, rfl, rfl, rfl, rfl⟩

/-- A client keeps its slot and its accept commands as long as it has a reference. -/
theorem unref_clients (h : Hci) : (s.bteClientUnref h).clients =
    if (s.client h).refCount = 1 then fun i => if s.clients i = some h then none else s.clients i else s.clients := by
  unfold bteClientUnref
  split <;> rfl

theorem unref_accepting (h : Hci) : (s.bteClientUnref h).accepting =
    if (s.client h).refCount = 1 then s.accepting.filter fun a => a.1 ≠ h else s.accepting := by
  unfold bteClientUnref
  split <;> rfl

theorem custody_clientUnref {h : Hci} (hc : Custody (some h) s) : Custody none (s.bteClientUnref h) := by
  have hsame := unref_same s h
  have howed := hc.owed h
  rw [Option.toList_some, List.count_singleton_self] at howed
  constructor
  case newest => exact hsame.servers ▸ hc.newest
  case listed =>
    rw [hsame.servers, hsame.server]
    exact hc.listed
  case made =>
    rw [hsame.server, hsame.madeServers]
    exact hc.made
  case owed =>
    intro h'
    have ho := hc.owed h'
    have hof : (s.bteClientUnref h).serversOf h' = s.serversOf h' := by
      rw [serversOf, serversOf, hsame.servers, hsame.server]
    rw [unref_client, hof, hsame.held, hsame.acls, Option.toList_none, List.count_nil]
    rw [Option.toList_some, List.count_singleton] at ho
    split
    · rename_i heq
      subst heq
      omega
    · rename_i hne
      rw [if_neg (by simpa using Ne.symm hne)] at ho
      exact ho
  case slots =>
    intro h'
    rw [unref_client, unref_clients]
    by_cases hlast : (s.client h).refCount = 1
    · rw [if_pos hlast]
      by_cases heq : h' = h
      · subst heq
        rw [if_pos rfl, hlast]
        refine ⟨fun hn => absurd rfl hn, fun ⟨i, hi⟩ => ?_⟩
        split at hi
        · cases hi
        · contradiction
      · rw [if_neg heq, hc.slots h']
        refine exists_congr fun i => ?_
        split
        · rename_i hi
          rw [hi]
          exact ⟨fun he => absurd (Option.some.inj he).symm heq, fun he => nomatch he⟩
        · rfl
    · rw [if_neg hlast]
      by_cases heq : h' = h
      · subst heq
        rw [if_pos rfl, ← hc.slots]
        omega
      · rw [if_neg heq, hc.slots h']
  case once =>
    intro i j h' hi hj
    rw [unref_clients] at hi hj
    split at hi
    · rename_i hlast
      rw [if_pos hlast] at hj
      simp only at hi hj
      split at hi
      · cases hi
      · split at hj
        · cases hj
        · exact hc.once i j h' hi hj
    · rename_i hlast
      rw [if_neg hlast] at hj
      exact hc.once i j h' hi hj
  case madeClient =>
    intro h' hn
    rw [hsame.madeClients]
    rw [unref_client] at hn
    split at hn
    · rename_i heq
      subst heq
      exact hc.madeClient _ (by omega)
    · exact hc.madeClient h' hn
  case hook =>
    rw [hsame.servers, hsame.hook]
    exact hc.hook

theorem waiting_clientUnref {h : Hci} (hw : Waiting s) : Waiting (s.bteClientUnref h) := by
  have hsame := unref_same s h
  constructor
  · intro a ha
    rw [hsame.server, hsame.madeServers, unref_client]
    rw [unref_accepting] at ha
    split at ha
    · obtain ⟨ha, hne⟩ := List.mem_filter.1 ha
      rw [if_neg (by simpa using hne)]
      exact hw.accepting a ha
    · rename_i hlast
      have := hw.accepting a ha
      refine ⟨?_, this.2⟩
      split
      · rename_i heq
        have hn := this.1
        rw [heq] at hn
        omega
      · exact this.1
  · intro a ha p hp
    rw [hsame.server, hsame.madeServers]
    exact hw.asking a (hsame.asking ▸ ha) p hp

theorem freeSlot_some {i : Fin 4} (h : s.freeSlot = some i) : s.clients i = none := by
  simpa using List.find?_some h

theorem custody_withClient {i : Fin 4} (hc : Custody none s) (hfree : s.clients i = none) :
    Custody none (s.withClient i) := by
  have hzero : (s.client s.madeClients).refCount = 0 := by
    by_contra hn
    exact absurd (hc.madeClient _ hn) (Nat.lt_irrefl _)
  have hnone : ∀ j, s.clients j ≠ some s.madeClients := fun j hj => (hc.slots _).2 ⟨j, hj⟩ hzero
  have howed := hc.owed s.madeClients
  rw [hzero] at howed
  constructor
  case newest => exact hc.newest
  case listed => exact hc.listed
  case made => exact hc.made
  case owed =>
    intro h
    have ho := hc.owed h
    have hof : (s.withClient i).serversOf h = s.serversOf h := rfl
    have hacl : (s.withClient i).acls = s.acls := rfl
    have hheld : (s.withClient i).held h = if h = s.madeClients then 1 else s.held h := Function.update_apply ..
    have hclient : (s.withClient i).client h = if h = s.madeClients then ⟨1, 0, fun _ => none, 0⟩ else s.client h :=
      setClient_client ..
    rw [hof, hacl, hheld, hclient]
    split
    · rename_i heq
      subst heq
      simp only
      omega
    · exact ho
  case slots =>
    intro h
    have hclient : (s.withClient i).client h = if h = s.madeClients then ⟨1, 0, fun _ => none, 0⟩ else s.client h :=
      setClient_client ..
    have hslots : ∀ j, (s.withClient i).clients j = if j = i then some s.madeClients else s.clients j := fun j =>
      Function.update_apply ..
    rw [hclient]
    by_cases heq : h = s.madeClients
    · subst heq
      rw [if_pos rfl]
      exact ⟨fun _ => ⟨i, by rw [hslots, if_pos rfl]⟩, fun _ => Nat.one_ne_zero⟩
    · rw [if_neg heq]
      refine (hc.slots h).trans (exists_congr fun j => ?_)
      rw [hslots]
      split
      · rename_i hj
        rw [hj, hfree]
        exact ⟨fun he => (nomatch he), fun he => absurd (Option.some.inj he).symm heq⟩
      · rfl
  case once =>
    have hslots : ∀ j, (s.withClient i).clients j = if j = i then some s.madeClients else s.clients j := fun j =>
      Function.update_apply ..
    intro j k h hj hk
    rw [hslots] at hj hk
    split at hj
    · split at hk
      · rename_i hji hki
        rw [hji, hki]
      · cases hj
        exact absurd hk (hnone k)
    · split at hk
      · cases hk
        exact absurd hj (hnone j)
      · exact hc.once j k h hj hk
  case madeClient =>
    intro h hn
    have hclient : (s.withClient i).client h = if h = s.madeClients then ⟨1, 0, fun _ => none, 0⟩ else s.client h :=
      setClient_client ..
    rw [hclient] at hn
    split at hn
    · rename_i heq
      rw [heq]
      exact Nat.lt_succ_self _
    · exact Nat.lt_succ_of_lt (hc.madeClient h hn)
  case hook => exact hc.hook

theorem custody_clientNew (hc : Custody none s) : Custody none s.bteClientNew := by
  unfold bteClientNew
  split
  · exact { hc with madeClient := fun h hn => Nat.lt_succ_of_lt (hc.madeClient h hn) }
  · rename_i i hslot
    exact custody_withClient hc (freeSlot_some hslot)

theorem waiting_clientNew (hw : Waiting s) : Waiting s.bteClientNew := by
  unfold bteClientNew
  split
  · exact ⟨hw.accepting, hw.asking⟩
  · rename_i i _
    refine ⟨fun a ha => ⟨?_, (hw.accepting a ha).2⟩, hw.asking⟩
    have hclient : (s.withClient i).client a.1 =
        if a.1 = s.madeClients then ⟨1, 0, fun _ => none, 0⟩ else s.client a.1 := setClient_client ..
    rw [hclient]
    split
    · exact Nat.one_ne_zero
    · exact (hw.accepting a ha).1

/-! ## Servers -/

theorem custody_serverNew {h : Hci} (psm : UInt16) (hc : Custody none s) (hlive : (s.client h).refCount ≠ 0) :
    Custody none (s.bteL2capServerNew h psm) := by
  have href := custody_clientRef hc hlive
  have hnew : ∀ p ∈ s.servers, p < s.madeServers := fun p hp => hc.made p ((hc.listed p).1 hp)
  constructor
  case newest => exact List.pairwise_cons.2 ⟨hnew, hc.newest⟩
  case listed =>
    intro p
    simp only [bteL2capServerNew, setServer_server, List.mem_cons]
    split
    · rename_i heq
      exact ⟨fun _ => Nat.one_ne_zero, fun _ => .inl heq⟩
    · rename_i hne
      rw [or_iff_right hne]
      exact hc.listed p
  case made =>
    intro p hn
    simp only [bteL2capServerNew, setServer_server] at hn
    split at hn
    · rename_i heq
      rw [heq]
      exact Nat.lt_succ_self _
    · exact Nat.lt_succ_of_lt (hc.made p hn)
  case owed =>
    intro h'
    have ho := href.owed h'
    have hof : (s.bteL2capServerNew h psm).serversOf h' = s.serversOf h' + if h = h' then 1 else 0 := by
      simp only [serversOf, bteL2capServerNew, List.countP_cons, setServer_server, if_pos, decide_eq_true_eq]
      congr 1
      refine List.countP_congr fun p hp => ?_
      rw [if_neg (Nat.ne_of_lt (hnew p hp))]
      rfl
    have hsame : (s.bteClientRef h).serversOf h' = s.serversOf h' := rfl
    rw [hof, Option.toList_none, List.count_nil]
    rw [Option.toList_some, List.count_singleton, hsame] at ho
    simp only [beq_iff_eq] at ho
    show ((s.bteClientRef h).client h').refCount = s.held h' + _ + s.acls.count h' + 0
    rw [ho]
    show s.held h' + s.serversOf h' + s.acls.count h' + _ = _
    omega
  case slots => exact href.slots
  case once => exact href.once
  case madeClient => exact href.madeClient
  case hook => exact fun _ => rfl

theorem waiting_serverNew {h : Hci} (psm : UInt16) (hw : Waiting s) : Waiting (s.bteL2capServerNew h psm) := by
  constructor
  · intro a ha
    obtain ⟨hlive, hh, hlt⟩ := hw.accepting a ha
    simp only [bteL2capServerNew, setServer_server, if_neg (Nat.ne_of_lt hlt)]
    exact ⟨clientRef_live hlive, hh, Nat.lt_succ_of_lt hlt⟩
  · intro a ha p hp
    obtain ⟨hh, hlt⟩ := hw.asking a ha p hp
    simp only [bteL2capServerNew, setServer_server, if_neg (Nat.ne_of_lt hlt)]
    exact ⟨hh, Nat.lt_succ_of_lt hlt⟩

theorem mem_unlist {p q : Ptr} : q ∈ (s.unlist p).servers ↔ q ∈ s.servers ∧ q ≠ p := by simp [unlist]

/-- A server counts for its client. -/
theorem countP_unlist {p : Ptr} (hc : Custody hand s) (hp : p ∈ s.servers) (h : Hci) : s.serversOf h =
    ((s.servers.filter (· ≠ p)).countP fun q => (s.server q).hci = h) + if (s.server p).hci = h then 1 else 0 := by
  have hnodup : s.servers.Nodup := hc.newest.imp fun hgt => Nat.ne_of_gt hgt
  have herase : s.servers.filter (· ≠ p) = s.servers.erase p := by
    rw [hnodup.erase_eq_filter]
    exact List.filter_congr fun q _ => by rw [Bool.eq_iff_iff]; simp
  have hperm := List.perm_cons_erase hp
  rw [herase, serversOf, hperm.countP_eq, List.countP_cons]
  simp only [decide_eq_true_eq]

/-- The list without a server that has no reference left. -/
theorem custody_unlist {p : Ptr} (v : L2capServer) (hc : Custody none s) (hlast : (s.server p).refCount = 1)
    (hv : v.refCount = 0) (hh : v.hci = (s.server p).hci) :
    Custody (some (s.server p).hci) ((s.setServer p v).unlist p) := by
  have hp : p ∈ s.servers := (hc.listed p).2 (by rw [hlast]; exact Nat.one_ne_zero)
  have hserver : ∀ q, q ≠ p → ((s.setServer p v).unlist p).server q = s.server q := fun q hq =>
    (setServer_server s p q v).trans (if_neg hq)
  have hself : ((s.setServer p v).unlist p).server p = v := (setServer_server s p p v).trans (if_pos rfl)
  constructor
  case newest => exact hc.newest.filter _
  case listed =>
    intro q
    rw [mem_unlist]
    by_cases hq : q = p
    · subst hq
      rw [hself, hv]
      exact ⟨fun h => absurd rfl h.2, fun h => absurd rfl h⟩
    · rw [hserver q hq, and_iff_left hq]
      exact hc.listed q
  case made =>
    intro q hn
    by_cases hq : q = p
    · subst hq
      exact hc.made _ (by rw [hlast]; exact Nat.one_ne_zero)
    · exact hc.made q (by rwa [hserver q hq] at hn)
  case owed =>
    intro h
    have ho := hc.owed h
    have hone := countP_unlist hc hp h
    have hof : ((s.setServer p v).unlist p).serversOf h =
        (s.servers.filter (· ≠ p)).countP fun q => (s.server q).hci = h := by
      refine List.countP_congr fun q hq => ?_
      have hne : q ≠ p := by simpa using (List.mem_filter.1 hq).2
      rw [hserver q hne]
    rw [hof, Option.toList_some, List.count_singleton]
    rw [Option.toList_none, List.count_nil] at ho
    simp only [beq_iff_eq]
    show (s.client h).refCount = s.held h + _ + s.acls.count h + _
    omega
  case slots => exact hc.slots
  case once => exact hc.once
  case madeClient => exact hc.madeClient
  case hook => exact fun _ => hc.hook (List.ne_nil_of_mem hp)

theorem custody_serverUnref {p : Ptr} (taken : Bool) (hc : Custody none s) (hlive : (s.server p).refCount ≠ 0) :
    Custody none (s.bteL2capServerUnref p taken) := by
  unfold bteL2capServerUnref
  split
  · rename_i hlast
    have hun := custody_unlist { s.server p with refCount := (s.server p).refCount - 1 } hc hlast
      (by simp only [hlast]) rfl
    have hself : ((s.setServer p { s.server p with refCount := (s.server p).refCount - 1 }).server p).hci =
        (s.server p).hci := by
      rw [setServer_server, if_pos rfl]
    rw [bteL2capServerFree, hself]
    exact custody_clientUnref ((alike_endScan _ taken).custody hun)
  · rename_i hlast
    constructor
    case newest => exact hc.newest
    case listed =>
      intro q
      refine (hc.listed q).trans ?_
      rw [setServer_server]
      split
      · rename_i heq
        subst heq
        simp only
        omega
      · rfl
    case made =>
      intro q hn
      rw [setServer_server] at hn
      split at hn
      · rename_i heq
        rw [heq]
        exact hc.made p hlive
      · exact hc.made q hn
    case owed =>
      intro h
      refine (hc.owed h).trans ?_
      have hof : (s.setServer p { s.server p with refCount := (s.server p).refCount - 1 }).serversOf h =
          s.serversOf h := by
        refine List.countP_congr fun q _ => ?_
        rw [setServer_server]
        split
        · rename_i heq
          rw [heq]
        · rfl
      rw [hof]
      rfl
    case slots => exact hc.slots
    case once => exact hc.once
    case madeClient => exact hc.madeClient
    case hook => exact hc.hook

theorem custody_serverRef {p : Ptr} (hc : Custody none s) (hlive : (s.server p).refCount ≠ 0) :
    Custody none (s.bteL2capServerRef p) where
  newest := hc.newest
  listed q := by
    refine (hc.listed q).trans ?_
    rw [bteL2capServerRef, setServer_server]
    split
    · rename_i heq
      rw [heq]
      exact iff_of_true hlive (Nat.succ_ne_zero _)
    · rfl
  made q hn := by
    rw [bteL2capServerRef, setServer_server] at hn
    split at hn
    · rename_i heq
      rw [heq]
      exact hc.made p hlive
    · exact hc.made q hn
  owed h := by
    have hof : (s.bteL2capServerRef p).serversOf h = s.serversOf h := by
      refine List.countP_congr fun q _ => ?_
      rw [bteL2capServerRef, setServer_server]
      split
      · rename_i heq
        rw [heq]
      · rfl
    rw [hof]
    exact hc.owed h
  slots := hc.slots
  once := hc.once
  madeClient := hc.madeClient
  hook := hc.hook

/-- The library's addresses of servers outlive what a server's references do. -/
theorem Waiting.setServer {p : Ptr} {v : L2capServer} (hw : Waiting s) (hh : v.hci = (s.server p).hci) :
    Waiting (s.setServer p v) := by
  have hserver : ∀ q, ((s.setServer p v).server q).hci = (s.server q).hci := by
    intro q
    rw [setServer_server]
    split
    · rename_i heq
      rw [heq, hh]
    · rfl
  constructor
  · intro a ha
    rw [hserver]
    exact hw.accepting a ha
  · intro a ha q hq
    rw [hserver]
    exact hw.asking a ha q hq

theorem waiting_writeScanEnable (hw : Waiting s) (h : Hci) (mode : UInt8) (taken : Bool) :
    Waiting (s.bteHciWriteScanEnable h mode taken) := by
  obtain ⟨hacc, hask, -⟩ := writeScanEnable_waits (s := s) h mode taken
  exact (alike_writeScanEnable h mode taken).waiting (fun a ha => hacc ▸ ha) (fun a ha => hask ▸ ha) hw

theorem waiting_serverUnref {p : Ptr} (taken : Bool) (hw : Waiting s) : Waiting (s.bteL2capServerUnref p taken) := by
  have hset := hw.setServer (v := { s.server p with refCount := (s.server p).refCount - 1 }) (p := p) rfl
  unfold bteL2capServerUnref
  split
  · refine waiting_clientUnref ?_
    have hun : Waiting ((s.setServer p { s.server p with refCount := (s.server p).refCount - 1 }).unlist p) :=
      ⟨hset.accepting, hset.asking⟩
    unfold endScan
    split
    · exact waiting_writeScanEnable hun _ _ _
    · exact hun
  · exact hset

/-! ## Requests -/

theorem alike_answer (r : RequestEvent) (granted : Option Listener) (command : Option ServingCommand) :
    Alike s (s.answer r granted command) := { Alike.refl s with }

theorem alike_accept (r : RequestEvent) (h : Hci) (p : Ptr) (taken : Bool) : Alike s (s.accept r h p taken) := by
  unfold accept
  split
  · exact { Alike.refl s with }
  · exact alike_answer _ _ _

theorem alike_proceed (r : RequestEvent) (taken : Bool) (f : Found) : Alike s (s.proceed r taken f) := by
  cases f with
  | ask slot l => exact { Alike.refl s with }
  | accept h p => exact alike_accept _ _ _ _
  | nobody => exact alike_answer _ _ _

/-- What the search comes upon: a server of the client, in the list. -/
def Found.Sound (s : Serving) : Found → Prop
  | .ask _ l => ∀ p ∈ l.server, p ∈ s.servers ∧ (s.server p).hci = l.hci
  | .accept h p => p ∈ s.servers ∧ (s.server p).hci = h
  | .nobody => True

theorem searchServers_sound (s : Serving) (slot : Fin 4) (h : Hci) : ∀ l : List Ptr, (∀ p ∈ l, p ∈ s.servers) →
    ∀ f ∈ s.searchServers slot h l, f.Sound s
  | [], _, _, hf => nomatch hf
  | p :: rest, hl, f, hf => by
    unfold searchServers at hf
    split at hf
    · exact searchServers_sound s slot h rest (fun q hq => hl q (List.mem_cons_of_mem p hq)) f hf
    · rename_i hh
      have hp : p ∈ s.servers ∧ (s.server p).hci = h := ⟨hl p List.mem_cons_self, not_not.1 hh⟩
      split at hf
      · cases hf
        exact hp
      · cases hf
        intro q hq
        cases hq
        exact hp

theorem searchClients_sound (s : Serving) (r : RequestEvent) : ∀ l : List (Fin 4), (s.searchClients r l).Sound s
  | [] => trivial
  | slot :: rest => by
    have ih := searchClients_sound s r rest
    unfold searchClients
    split
    · exact ih
    · rename_i h _
      split
      · exact ih
      · intro p hp
        cases hp
      · split
        · cases hf : s.searchServers slot h s.servers with
          | none => exact ih
          | some f => exact searchServers_sound s slot h s.servers (fun _ hp => hp) f hf
        · exact ih

theorem waiting_answer (hw : Waiting s) (r : RequestEvent) (granted : Option Listener)
    (command : Option ServingCommand) : Waiting (s.answer r granted command) := ⟨hw.accepting, fun _ ha => nomatch ha⟩

theorem waiting_accept (hc : Custody none s) (hw : Waiting s) (r : RequestEvent) {h : Hci} {p : Ptr} (taken : Bool)
    (hp : p ∈ s.servers ∧ (s.server p).hci = h) : Waiting (s.accept r h p taken) := by
  unfold accept
  split
  · refine ⟨fun a ha => ?_, fun _ ha => nomatch ha⟩
    rcases List.mem_append.1 ha with ha | ha
    · exact hw.accepting a ha
    · cases List.mem_singleton.1 ha
      refine ⟨?_, hp.2, hc.made p ((hc.listed p).1 hp.1)⟩
      have ho := hc.owed h
      have hpos : 0 < s.serversOf h := List.countP_pos_iff.2 ⟨p, hp.1, by simpa using hp.2⟩
      show (s.client h).refCount ≠ 0
      omega
  · exact waiting_answer hw _ _ _

theorem waiting_proceed (hc : Custody none s) (hw : Waiting s) (r : RequestEvent) (taken : Bool) {f : Found}
    (hf : f.Sound s) : Waiting (s.proceed r taken f) := by
  cases f with
  | ask slot l =>
    refine ⟨hw.accepting, fun a ha p hp => ?_⟩
    cases ha
    exact ⟨(hf p hp).2, hc.made p ((hc.listed p).1 (hf p hp).1)⟩
  | accept h p => exact waiting_accept hc hw r taken hf
  | nobody => exact waiting_answer hw _ _ _

theorem searchOn_sound (a : Asking) : (s.searchOn a).Sound s := by
  unfold searchOn
  split
  · exact searchClients_sound s a.request _
  · rename_i p _
    cases hf : s.searchServers a.slot a.listener.hci (s.serversAfter p) with
    | none => exact searchClients_sound s a.request _
    | some f =>
      refine searchServers_sound s a.slot a.listener.hci _ (fun q hq => ?_) f hf
      exact (List.dropWhile_sublist _).subset (List.mem_of_mem_tail hq)

theorem alike_decline (l : Listener) : Alike s (s.decline l) := { Alike.refl s with }

theorem alike_halt (s : Serving) : Alike s s.halt := { Alike.refl s with }

theorem Waiting.decline (hw : Waiting s) (l : Listener) : Waiting (s.decline l) := ⟨hw.accepting, hw.asking⟩

theorem Waiting.halt (hw : Waiting s) : Waiting s.halt := ⟨hw.accepting, hw.asking⟩

theorem alike_resume (a : Asking) (ret taken : Bool) : Alike s (s.resume a ret taken) := by
  unfold resume
  split
  · split
    · exact alike_answer _ _ _
    · exact (alike_decline _).trans (alike_proceed _ _ _)
  · split
    · exact alike_halt s
    · split
      · exact alike_accept _ _ _ _
      · exact (alike_decline _).trans (alike_proceed _ _ _)

/-- A server that has a reference is in the list, and its client is the one that was asked. -/
theorem waiting_resume (hc : Custody none s) (hw : Waiting s) {a : Asking} (ha : s.asking = some a) (ret taken : Bool) :
    Waiting (s.resume a ret taken) := by
  have hon : Waiting ((s.decline a.listener).proceed a.request taken (s.searchOn a)) :=
    waiting_proceed ((alike_decline _).custody hc) (hw.decline _) _ _ (searchOn_sound a)
  unfold resume
  split
  · split
    · exact waiting_answer hw _ _ _
    · exact hon
  · rename_i p hp
    split
    · exact hw.halt
    · rename_i hlive
      split
      · exact waiting_accept hc hw _ _ ⟨(hc.listed p).2 hlive, (hw.asking a ha p hp).1⟩
      · exact hon

/-! ## Connections and channels -/

theorem alike_authenticate (h : Hci) (p : Ptr) (connHandle : UInt16) (taken : Bool) :
    Alike s (s.authenticate h p connHandle taken) := by
  unfold authenticate
  split
  · exact alike_sendAsync _ _ _
  · exact .refl s

/-- The accept commands and the rest are the same. -/
theorem authenticate_waits (h : Hci) (p : Ptr) (connHandle : UInt16) (taken : Bool) :
    (s.authenticate h p connHandle taken).accepting = s.accepting ∧
      (s.authenticate h p connHandle taken).asking = s.asking ∧
      (s.authenticate h p connHandle taken).stopped = s.stopped := by
  unfold authenticate sendAsync
  split
  · split <;> exact ⟨rfl, rfl, rfl⟩
  · exact ⟨rfl, rfl, rfl⟩

theorem custody_newConnected (hc : Custody none s) {h : Hci} (hlive : (s.client h).refCount ≠ 0) (room : Bool) :
    Custody none (s.l2capAclNewConnected h room) := by
  unfold l2capAclNewConnected
  split
  · refine (custody_clientRef hc hlive).give rfl rfl rfl rfl rfl rfl rfl fun h' => ?_
    rw [List.count_append]
    exact (Nat.add_assoc _ _ _).symm
  · exact (alike_halt s).custody hc

theorem waiting_newConnected (hw : Waiting s) (h : Hci) (room : Bool) : Waiting (s.l2capAclNewConnected h room) := by
  unfold l2capAclNewConnected
  split
  · refine ⟨fun a ha => ?_, hw.asking⟩
    obtain ⟨hlive, hrest⟩ := hw.accepting a ha
    exact ⟨clientRef_live hlive, hrest⟩
  · exact hw.halt

theorem custody_accepted (hc : Custody none s) {h : Hci} (hlive : (s.client h).refCount ≠ 0) (p : Ptr) (status : UInt8)
    (connHandle : UInt16) (taken room : Bool) :
    Custody none (s.hciAcceptConnectionCb h p status connHandle taken room) := by
  have hauth := alike_authenticate (s := s) h p connHandle taken
  unfold hciAcceptConnectionCb
  split
  · exact hc
  · split
    · exact (alike_halt s).custody hc
    · exact custody_newConnected (hauth.custody hc) (by rwa [hauth.clientRefs]) room

theorem waiting_accepted (hw : Waiting s) (h : Hci) (p : Ptr) (status : UInt8) (connHandle : UInt16)
    (taken room : Bool) : Waiting (s.hciAcceptConnectionCb h p status connHandle taken room) := by
  obtain ⟨hacc, hask, -⟩ := authenticate_waits (s := s) h p connHandle taken
  unfold hciAcceptConnectionCb
  split
  · exact hw
  · split
    · exact hw.halt
    · refine waiting_newConnected ?_ h room
      exact (alike_authenticate h p connHandle taken).waiting (fun a ha => hacc ▸ ha) (fun a ha => hask ▸ ha) hw

theorem alike_connectionReq (psm : UInt16) (l2cap : Ptr) (room : Bool) :
    Alike s (s.handleConnectionReq psm l2cap room) := by
  unfold handleConnectionReq
  split
  · split
    · exact .refl s
    · split
      · split
        · exact alike_halt s
        · exact { Alike.refl s with }
      · exact alike_halt s
  · exact .refl s

theorem waiting_connectionReq (hw : Waiting s) (psm : UInt16) (l2cap : Ptr) (room : Bool) :
    Waiting (s.handleConnectionReq psm l2cap room) := by
  unfold handleConnectionReq
  split
  · split
    · exact hw
    · split
      · split
        · exact hw.halt
        · exact ⟨hw.accepting, hw.asking⟩
      · exact hw.halt
  · exact hw

/-! ## One operation -/

/-- What every legal operation preserves. -/
def Kept (s : Serving) : Prop := Custody none s ∧ Waiting s

theorem kept_start : Kept start := by
  refine ⟨⟨List.Pairwise.nil, fun p => ?_, fun _ hn => absurd rfl hn, fun _ => rfl, fun h => ?_,
    fun _ _ _ hi => (nomatch hi), fun _ hn => absurd rfl hn, fun hn => absurd rfl hn⟩, fun _ ha => (nomatch ha),
    fun _ ha => nomatch ha⟩
  · exact ⟨fun hp => (nomatch hp), fun hn => absurd rfl hn⟩
  · exact ⟨fun hn => absurd rfl hn, fun ⟨_, hi⟩ => nomatch hi⟩

theorem Alike.kept (h : Alike s s') (hacc : s'.accepting = s.accepting) (hask : s'.asking = s.asking) (hk : Kept s) :
    Kept s' :=
  ⟨h.custody hk.1, h.waiting (fun _ ha => hacc ▸ ha) (fun _ ha => hask ▸ ha) hk.2⟩

theorem kept_setClient {h : Hci} {c : ServingClient} (hk : Kept s) (hc : c.refCount = (s.client h).refCount) :
    Kept (s.setClient h c) := (alike_setClient hc).kept rfl rfl hk

theorem kept_setServer {p : Ptr} {v : L2capServer} (hk : Kept s) (hr : v.refCount = (s.server p).refCount)
    (hh : v.hci = (s.server p).hci) : Kept (s.setServer p v) := (alike_setServer hr hh).kept rfl rfl hk

theorem kept_writeScanEnable (hk : Kept s) (h : Hci) (mode : UInt8) (taken : Bool) :
    Kept (s.bteHciWriteScanEnable h mode taken) :=
  ⟨(alike_writeScanEnable h mode taken).custody hk.1, waiting_writeScanEnable hk.2 h mode taken⟩

theorem kept_onConnected (hk : Kept s) (p : Ptr) (cb : Option Ptr) (u : Ptr) (taken : Bool) :
    Kept (s.bteL2capServerOnConnected p cb u taken) := by
  have hset : Kept (s.setServer p { s.server p with connectedCb := cb, userdata := u }) :=
    kept_setServer hk rfl rfl
  exact kept_writeScanEnable ((alike_onRequest _ _ _).kept rfl rfl hset) _ _ _

/-- A user takes a reference. -/
theorem kept_clientRef {h : Hci} (hk : Kept s) (hlive : (s.client h).refCount ≠ 0) : Kept (s.act (.clientRef h)) := by
  have href := custody_clientRef hk.1 hlive
  refine ⟨href.give rfl rfl rfl rfl rfl rfl rfl fun h' => ?_, fun a ha => ?_, hk.2.asking⟩
  · have hheld : (s.act (.clientRef h)).held h' = if h' = h then s.held h + 1 else s.held h' := Function.update_apply ..
    rw [hheld, List.count_singleton]
    show _ + s.acls.count h' = s.held h' + s.acls.count h' + _
    by_cases heq : h' = h
    · subst heq
      rw [if_pos rfl, if_pos (by simp)]
      omega
    · rw [if_neg heq, if_neg (by simpa using Ne.symm heq)]
      omega
  · obtain ⟨hl, hrest⟩ := hk.2.accepting a ha
    exact ⟨clientRef_live hl, hrest⟩

/-- A reference that a user or a connection gives up is in the hand of the function that gives it back. -/
theorem Custody.take {h : Hci} (held : Hci → Nat) (acls : List Hci) (hc : Custody none s)
    (howed : ∀ h', s.held h' + s.acls.count h' = held h' + acls.count h' + [h].count h') :
    Custody (some h) { s with held := held, acls := acls } :=
  { hc with
    owed := fun h' => by
      have ho := hc.owed h'
      have hw := howed h'
      rw [Option.toList_some]
      rw [Option.toList_none, List.count_nil] at ho
      show (s.client h').refCount = held h' + s.serversOf h' + acls.count h' + _
      omega }

theorem kept_clientUnref {h : Hci} (hk : Kept s) (hheld : s.held h ≠ 0) : Kept (s.act (.clientUnref h)) := by
  have hc : Custody (some h) { s with held := Function.update s.held h (s.held h - 1) } := by
    refine hk.1.take _ s.acls fun h' => ?_
    rw [Function.update_apply, List.count_singleton]
    by_cases heq : h' = h
    · subst heq
      rw [if_pos rfl, if_pos (by simp)]
      omega
    · rw [if_neg heq, if_neg (by simpa using Ne.symm heq)]
      omega
  exact ⟨custody_clientUnref hc, waiting_clientUnref ⟨hk.2.accepting, hk.2.asking⟩⟩

theorem kept_aclFreed {h : Hci} (hk : Kept s) (hacl : h ∈ s.acls) : Kept (s.act (.aclFreed h)) := by
  have hc : Custody (some h) { s with acls := s.acls.erase h } := by
    refine hk.1.take s.held _ fun h' => ?_
    have hpos : 0 < s.acls.count h := List.count_pos_iff.2 hacl
    by_cases heq : h' = h
    · subst heq
      rw [List.count_erase_self, List.count_singleton_self]
      omega
    · rw [List.count_erase_of_ne heq, List.count_singleton, if_neg (by simpa using Ne.symm heq)]
      omega
  exact ⟨custody_clientUnref hc, waiting_clientUnref ⟨hk.2.accepting, hk.2.asking⟩⟩

theorem kept_accepted (hk : Kept s) (i : Nat) (reply : Option (UInt8 × UInt16)) (taken room : Bool) :
    Kept (s.endAccept i reply taken room) := by
  unfold endAccept
  split
  · exact hk
  · rename_i a hi
    obtain ⟨hlive, -⟩ := hk.2.accepting a (List.mem_of_getElem? hi)
    have hw : Waiting { s with accepting := s.accepting.eraseIdx i } :=
      ⟨fun a ha => hk.2.accepting a (List.mem_of_mem_eraseIdx ha), hk.2.asking⟩
    have hc : Custody none { s with accepting := s.accepting.eraseIdx i } := { hk.1 with }
    simp only
    split
    · exact ⟨hc, hw⟩
    · exact ⟨custody_accepted hc hlive _ _ _ _ _, waiting_accepted hw _ _ _ _ _ _⟩

theorem kept_request (hk : Kept s) (r : RequestEvent) (taken : Bool) : Kept (s.request r taken) := by
  have hk' : Kept (s.receive r) := ⟨{ hk.1 with }, ⟨hk.2.accepting, hk.2.asking⟩⟩
  unfold request
  split
  · exact ⟨(alike_proceed _ _ _).custody hk'.1, waiting_proceed hk'.1 hk'.2 _ _ (searchClients_sound s r _)⟩
  · exact hk

theorem kept_act (hk : Kept s) {o : ServingOp} (hl : o.Legal s) : Kept (s.act o) := by
  cases o with
  | clientNew => exact ⟨custody_clientNew hk.1, waiting_clientNew hk.2⟩
  | clientRef h => exact kept_clientRef hk hl
  | clientUnref h => exact kept_clientUnref hk hl
  | setUserdata h u => exact kept_setClient hk rfl
  | onRequest h kind callback => exact (alike_onRequest _ _ _).kept rfl rfl hk
  | writeScanEnable h mode taken => exact kept_writeScanEnable hk _ _ _
  | asyncCommand h taken =>
    show Kept (if taken then { s with unsettled := s.unsettled ++ [h] } else s)
    split
    · exact ⟨{ hk.1 with }, ⟨hk.2.accepting, hk.2.asking⟩⟩
    · exact hk
  | serverNew h psm => exact ⟨custody_serverNew psm hk.1 hl, waiting_serverNew psm hk.2⟩
  | serverRef p => exact ⟨custody_serverRef hk.1 hl, hk.2.setServer rfl⟩
  | serverUnref p taken => exact ⟨custody_serverUnref taken hk.1 hl, waiting_serverUnref taken hk.2⟩
  | setNeedsAuth p b => exact kept_setServer hk rfl rfl
  | setRole p r => exact kept_setServer hk rfl rfl
  | onConnected p cb u taken => exact kept_onConnected hk _ _ _ _
  | onConnectionRequest p cb u => exact kept_setServer hk rfl rfl
  | request r taken => exact kept_request hk r taken
  | returns ret taken =>
    show Kept (s.returned ret taken)
    unfold returned
    split
    · exact hk
    · rename_i a ha
      exact ⟨(alike_resume _ _ _).custody hk.1, waiting_resume hk.1 hk.2 ha _ _⟩
  | commandStatus h => exact ⟨{ hk.1 with }, ⟨hk.2.accepting, hk.2.asking⟩⟩
  | accepted i reply taken room => exact kept_accepted hk _ _ _ _
  | aclFreed h => exact kept_aclFreed hk hl.2
  | connectionReq psm l2cap room =>
    exact ⟨(alike_connectionReq _ _ _).custody hk.1, waiting_connectionReq hk.2 _ _ _⟩

theorem kept_step (hk : Kept s) {o : ServingOp} (hl : o.Legal s) : Kept (s.step o) := by
  unfold step
  split
  · exact hk
  · exact kept_act hk hl

/-! ## When the program stops -/

theorem stopped_clientUnref (h : Hci) : (s.bteClientUnref h).stopped = s.stopped := (unref_same s h).stopped

theorem stopped_serverUnref (p : Ptr) (taken : Bool) : (s.bteL2capServerUnref p taken).stopped = s.stopped := by
  unfold bteL2capServerUnref
  split
  · rw [bteL2capServerFree, stopped_clientUnref]
    unfold endScan
    split
    · exact (writeScanEnable_waits _ _ _).2.2
    · rfl
  · rfl

theorem stopped_accept (r : RequestEvent) (h : Hci) (p : Ptr) (taken : Bool) :
    (s.accept r h p taken).stopped = s.stopped := by
  unfold accept
  split <;> rfl

theorem stopped_proceed (r : RequestEvent) (taken : Bool) (f : Found) : (s.proceed r taken f).stopped = s.stopped := by
  cases f with
  | ask slot l => rfl
  | accept h p => exact stopped_accept _ _ _ _
  | nobody => rfl

theorem stopped_resume_iff (hs : s.stopped = false) (a : Asking) (ret taken : Bool) :
    (s.resume a ret taken).stopped = false ↔ ∀ p ∈ a.listener.server, (s.server p).refCount ≠ 0 := by
  have hon : ((s.decline a.listener).proceed a.request taken (s.searchOn a)).stopped = false := by
    rw [stopped_proceed]
    exact hs
  unfold resume
  split
  · rename_i hnone
    rw [hnone]
    refine iff_of_true ?_ fun _ hp => nomatch hp
    split
    · exact hs
    · exact hon
  · rename_i p hp
    rw [hp]
    simp only [Option.mem_some_iff, forall_eq']
    split
    · rename_i hfreed
      exact iff_of_false Bool.noConfusion fun hn => hn hfreed
    · rename_i hlive
      refine iff_of_true ?_ hlive
      split
      · rw [stopped_accept]
        exact hs
      · exact hon

theorem stopped_accepted_iff (hs : s.stopped = false) (h : Hci) (p : Ptr) (status : UInt8) (connHandle : UInt16)
    (taken room : Bool) : (s.hciAcceptConnectionCb h p status connHandle taken room).stopped = false ↔
      (status = 0 → (s.server p).refCount ≠ 0 ∧ room = true) := by
  unfold hciAcceptConnectionCb
  split
  · rename_i hstatus
    exact iff_of_true hs fun h0 => absurd h0 hstatus
  · rename_i hstatus
    rw [forall_prop_of_true (not_not.1 hstatus)]
    split
    · rename_i hfreed
      exact iff_of_false Bool.noConfusion fun hn => hn.1 hfreed
    · rename_i hlive
      rw [and_iff_right hlive]
      have hauth : (s.authenticate h p connHandle taken).stopped = false := (authenticate_waits _ _ _ _).2.2.trans hs
      unfold l2capAclNewConnected
      split
      · rename_i hroom
        exact iff_of_true hauth hroom
      · rename_i hroom
        exact iff_of_false Bool.noConfusion hroom

theorem stopped_endAccept_iff (hs : s.stopped = false) (i : Nat) (reply : Option (UInt8 × UInt16)) (taken room : Bool) :
    (s.endAccept i reply taken room).stopped = false ↔
      ∀ a ∈ s.accepting[i]?, ∀ r ∈ reply, r.1 = 0 → (s.server a.2).refCount ≠ 0 ∧ room = true := by
  unfold endAccept
  cases s.accepting[i]? with
  | none => exact iff_of_true hs fun _ h => nomatch h
  | some a =>
    simp only [Option.mem_some_iff, forall_eq']
    cases reply with
    | none => exact iff_of_true hs fun _ h => nomatch h
    | some r =>
      simp only [Option.mem_some_iff, forall_eq']
      exact stopped_accepted_iff (s := { s with accepting := s.accepting.eraseIdx i }) hs _ _ _ _ _ _

theorem stopped_connectionReq_iff (hk : Kept s) (hs : s.stopped = false) (psm : UInt16) (l2cap : Ptr) (room : Bool) :
    (s.handleConnectionReq psm l2cap room).stopped = false ↔
      ∀ p ∈ s.serverForPsm psm, (s.server p).connectedCb.isSome = true ∧ room = true := by
  unfold handleConnectionReq
  split
  · split
    · rename_i hnone
      rw [hnone]
      exact iff_of_true hs fun _ hp => nomatch hp
    · rename_i p hp
      rw [hp]
      simp only [Option.mem_some_iff, forall_eq']
      split
      · rename_i hroom
        split
        · rename_i hcb
          rw [hcb]
          exact iff_of_false Bool.noConfusion fun h => Bool.noConfusion h.1
        · rename_i fn hcb
          rw [hcb]
          exact iff_of_true hs ⟨rfl, hroom⟩
      · rename_i hroom
        exact iff_of_false Bool.noConfusion fun h => hroom h.2
  · rename_i hhook
    refine iff_of_true hs fun p hp => absurd (hk.1.hook (List.ne_nil_of_mem (List.mem_of_find?_eq_some hp))) hhook

theorem act_stopped_iff (hk : Kept s) (hs : s.stopped = false) (o : ServingOp) :
    (s.act o).stopped = false ↔ o.Careful s := by
  cases o with
  | clientNew =>
    refine iff_of_true ?_ trivial
    show s.bteClientNew.stopped = false
    unfold bteClientNew
    split <;> exact hs
  | clientRef h => exact iff_of_true hs trivial
  | clientUnref h => exact iff_of_true ((stopped_clientUnref h).trans hs) trivial
  | setUserdata h u => exact iff_of_true hs trivial
  | onRequest h kind callback => exact iff_of_true hs trivial
  | writeScanEnable h mode taken => exact iff_of_true ((writeScanEnable_waits _ _ _).2.2.trans hs) trivial
  | asyncCommand h taken =>
    refine iff_of_true ?_ trivial
    show Serving.stopped (if taken then { s with unsettled := s.unsettled ++ [h] } else s) = false
    split <;> exact hs
  | serverNew h psm => exact iff_of_true hs trivial
  | serverRef p => exact iff_of_true hs trivial
  | serverUnref p taken => exact iff_of_true ((stopped_serverUnref p taken).trans hs) trivial
  | setNeedsAuth p b => exact iff_of_true hs trivial
  | setRole p r => exact iff_of_true hs trivial
  | onConnected p cb u taken => exact iff_of_true ((writeScanEnable_waits _ _ _).2.2.trans hs) trivial
  | onConnectionRequest p cb u => exact iff_of_true hs trivial
  | request r taken =>
    refine iff_of_true ?_ trivial
    show (s.request r taken).stopped = false
    unfold request
    split
    · exact (stopped_proceed _ _ _).trans hs
    · exact hs
  | returns ret taken =>
    show (s.returned ret taken).stopped = false ↔ ∀ a ∈ s.asking, ∀ p ∈ a.listener.server, (s.server p).refCount ≠ 0
    unfold returned
    cases s.asking with
    | none => exact iff_of_true hs fun _ h => nomatch h
    | some a =>
      simp only [Option.mem_some_iff, forall_eq']
      exact stopped_resume_iff hs a ret taken
  | commandStatus h => exact iff_of_true hs trivial
  | accepted i reply taken room => exact stopped_endAccept_iff hs i reply taken room
  | aclFreed h => exact iff_of_true ((stopped_clientUnref h).trans hs) trivial
  | connectionReq psm l2cap room => exact stopped_connectionReq_iff hk hs psm l2cap room

/-! ## Runs -/

theorem run_kept (ops : List ServingOp) (hk : Kept s) (hl : Sys.Admissible step (fun s o => o.Legal s) s ops) :
    Kept (Sys.run step s ops) := by
  have hstep : ∀ (s : Serving) (o : ServingOp), Kept s → o.Legal s → Kept (s.step o) := fun _ _ hk hl => kept_step hk hl
  exact Sys.inv_run hstep ops s hk hl

theorem run_stopped (hs : s.stopped = true) : ∀ ops : List ServingOp, Sys.run step s ops = s
  | [] => rfl
  | o :: ops => by
    rw [Sys.run_cons, step, if_pos hs]
    exact run_stopped hs ops

theorem run_stopped_iff : ∀ (ops : List ServingOp) {s : Serving}, Kept s → s.stopped = false →
    Sys.Admissible step (fun s o => o.Legal s) s ops →
      ((Sys.run step s ops).stopped = false ↔ Sys.Admissible step (fun s o => o.Careful s) s ops)
  | [], _, _, hs, _ => iff_of_true hs trivial
  | o :: ops, s, hk, hs, hl => by
    have hact : s.step o = s.act o := by rw [step, if_neg (by rw [hs]; exact Bool.noConfusion)]
    have hiff := act_stopped_iff hk hs o
    rw [← hact] at hiff
    rw [Sys.run_cons]
    show _ ↔ o.Careful s ∧ _
    cases hso : (s.step o).stopped with
    | true =>
      rw [run_stopped hso, hso]
      exact iff_of_false Bool.noConfusion fun h => absurd (hiff.2 h.1) (by rw [hso]; exact Bool.noConfusion)
    | false =>
      rw [and_iff_right (hiff.1 hso)]
      exact run_stopped_iff ops (kept_step hk hl.1) hso hl.2

/-- A server that has references keeps its client in a slot. -/
theorem Custody.slot_of_server {s : Serving} (h : Custody none s) {p : Ptr} (hp : p ∈ s.servers) :
    ∃ i, s.clients i = some (s.server p).hci := by
  refine (h.slots _).1 ?_
  have ho := h.owed (s.server p).hci
  have hpos : 0 < s.serversOf (s.server p).hci := List.countP_pos_iff.2 ⟨p, hp, by simp⟩
  omega

/-- **Every reference is somebody's**, over every run: a client's count is what its users, its servers and its incoming
connections have, the servers that have references are the list, newest first, and the client of each is in a slot.  The
program stops exactly when an operation is careless: a server is gone when its own function returns or when the
connection it accepted comes up, or a channel is for a server without a function, or finds no room.  The runs are those in
which a client's asynchronous commands do not overlap. -/
theorem server_custody (ops : List ServingOp)
    (ha : Sys.Admissible step (fun s o => o.Legal s ∧ o.Single s) start ops) :
    Custody none (Sys.run step start ops) ∧
      (∀ p ∈ (Sys.run step start ops).servers, ∃ i,
        (Sys.run step start ops).clients i = some ((Sys.run step start ops).server p).hci) ∧
      ((Sys.run step start ops).stopped = false ↔ Sys.Admissible step (fun s o => o.Careful s) start ops) := by
  have hl := ((Sys.admissible_and step (fun s o => o.Legal s) (fun s o => o.Single s) start ops).1 ha).1
  have hk : Kept (Sys.run step start ops) := run_kept ops kept_start hl
  exact ⟨hk.1, fun p hp => hk.1.slot_of_server hp, run_stopped_iff ops kept_start rfl hl⟩

/-- Two servers of a client, of which one asks; a peer connects and opens a channel, and all is given back. -/
def servingRun : List ServingOp :=
  [.clientNew, .serverNew 0 1, .serverNew 0 17, .onConnected 0 (some 50) 7 true, .onConnected 1 (some 52) 9 false,
    .onConnectionRequest 1 (some 60) 10, .request ⟨.connection, ⟨1, 2, 3, 4, 5, 6⟩, 0, 1⟩ true, .returns false true,
    .commandStatus 0, .accepted 0 (some (0, 42)) true true, .connectionReq 17 99 true, .serverUnref 1 true,
        .serverUnref 0 true,
    .aclFreed 0, .clientUnref 0]

theorem server_custody_servingRun :
    let s := Sys.run step start servingRun
    s.calls = [.connectionRequest 60 1 ⟨1, 2, 3, 4, 5, 6⟩ 0 10, .connected 52 1 99 9] ∧
      Sys.Admissible step (fun s o => o.Careful s) start servingRun ∧ (s.client 0).refCount = 0 ∧
      s.clients (0 : Fin 4) = none := by
  have hall := server_custody servingRun (by decide +kernel)
  exact ⟨by decide +kernel, hall.2.2.1 (by decide +kernel), by decide +kernel, by decide +kernel⟩

/-- A server that is freed before the connection it has accepted comes up is read again then. -/
theorem accepted_after_free : (Sys.run step start [.clientNew, .serverNew 0 17, .onConnected 0 (some 50) 0 true,
    .request ⟨.connection, ⟨1, 2, 3, 4, 5, 6⟩, 0, 1⟩ true, .commandStatus 0, .serverUnref 0 true,
    .accepted 0 (some (0, 42)) true true]).stopped = true := by decide +kernel

end Serving

end Bte
