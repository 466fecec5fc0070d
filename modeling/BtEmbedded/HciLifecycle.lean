import BtEmbedded.HciCommands
import BtEmbedded.Lib.Run
/-!
# HciLifecycle — clients, the driver and the backend (client.c, hci_dev.c)

The first `bte_client_new` initialises the backend and then the driver; the driver makes a client of its own in its
`init`, reports the outcome later with `_bte_hci_dev_set_status`, and drops its client.  The last client that goes takes
the backend down.  All of this is decided by `init_status`, which only the driver's reports change again: it stays what
it was when an initialisation returns an error, and when the backend is taken down.

What the backend and the driver do is not fixed here: each call of their `init` returns any value, and whatever the
driver calls before its `init` returns comes as operations of the run, between the call and its return.  The calls a
client makes from its initialization callback come after the report in the same way.
-/
namespace Bte

def eio : Int := 5

/-- One return of `bte_client_new`: whether the call initialised the backend, and whether an initialisation had failed
before it and the backend not been initialised since. -/
structure Answer where
  client : Option Hci
  initialised : Bool
  afterFailure : Bool
deriving DecidableEq

structure Lifecycle where
  dev : HciDev
  refCount : Hci → Nat
  /-- The calls of `_bte_driver.init` that have not returned, the latest first: was there a failure before them? -/
  driverInits : List Bool
  driverStarted : Bool
  /-- The backend has been initialised and not deinitialised since. -/
  backendUp : Bool
  /-- An initialisation has failed, and the backend has not been initialised since. -/
  failed : Bool
  /-- The last client has been freed, and the backend has not been initialised since. -/
  released : Bool
  answers : List Answer

namespace Lifecycle

def init : Lifecycle where
  dev := .init
  refCount := fun _ => 0
  driverInits := []
  driverStarted := false
  backendUp := false
  failed := false
  released := false
  answers := []

def NoClient (dev : HciDev) : Prop := ∀ i : Fin 4, dev.clients i = none

instance (dev : HciDev) : Decidable (NoClient dev) := inferInstanceAs (Decidable (∀ _ : Fin 4, _))

/-- `_bte_hci_dev_init` up to its call of `_bte_driver.init`: `none` when it gets there, otherwise what it returns.
`backend` is what `_bte_backend.init` returns. -/
def bteHciDevInit (s : Lifecycle) (backend : Int) : Option Int × Lifecycle :=
  if s.dev.initStatus ≠ .uninitialized then
    -- initialization has already started
    (some (if s.dev.initStatus = .failed then -eio else 0), s)
  else
    let s := { s with dev := { s.dev with initStatus := .initializing } }
    if backend < 0 then (some backend, { s with failed := true })
    else (none, { s with driverStarted := true, backendUp := true, failed := false, released := false })

def bteClientFree (s : Lifecycle) (h : Hci) : Lifecycle :=
  let dev := bteHciDevRemoveClient s.dev h
  { s with
    dev := dev
    backendUp := s.backendUp && decide (dev.calls.count .deinit = s.dev.calls.count .deinit)
    released := s.released || decide (NoClient dev) }

def bteClientRef (s : Lifecycle) (h : Hci) : Lifecycle :=
  { s with refCount := Function.update s.refCount h (s.refCount h + 1) }

def bteClientUnref (s : Lifecycle) (h : Hci) : Lifecycle :=
  let s' := { s with refCount := Function.update s.refCount h (s.refCount h - 1) }
  if s.refCount h = 1 then s'.bteClientFree h else s'

/-- `bte_client_new` once `_bte_hci_dev_init` has returned `rc`.  `memory` is what `bte_malloc` returns. -/
def clientNewRest (s : Lifecycle) (rc : Int) (memory : Option Hci) : Option Hci × Lifecycle :=
  if rc < 0 then (none, s)
  else
    match memory with
    | none => (none, s)
    | some h =>
      let added := (bteHciDevAddClient s.dev h).1
      let s := { s with dev := bteClientNew s.dev h, refCount := Function.update s.refCount h 1 }
      if added then (some h, s) else (none, s.bteClientUnref h)

/-- Record what `bte_client_new` returned. -/
def answer (r : Option Hci × Lifecycle) (initialised afterFailure : Bool) : Lifecycle :=
  { r.2 with answers := r.2.answers ++ [⟨r.1, initialised, afterFailure⟩] }

end Lifecycle

inductive LifecycleOp where
  /-- A call of `bte_client_new`, up to its return or to the call of the driver's `init`. -/
  | clientNew (backend : Int) (memory : Option Hci)
  /-- The latest call of the driver's `init` returns, and the `bte_client_new` that made it goes on. -/
  | driverReturns (rc : Int) (memory : Option Hci)
  | clientRef (h : Hci)
  | clientUnref (h : Hci)
  | setStatus (status : InitStatus)
deriving DecidableEq

def Lifecycle.step (s : Lifecycle) : LifecycleOp → Lifecycle
  | .clientNew backend memory =>
    match s.bteHciDevInit backend with
    | (some rc, s') => answer (s'.clientNewRest rc memory) false s.failed
    | (none, s') => { s' with driverInits := s.failed :: s'.driverInits }
  | .driverReturns rc memory =>
    match s.driverInits with
    | [] => s
    | afterFailure :: driverInits =>
      answer (({ s with driverInits := driverInits, failed := s.failed || decide (rc < 0) } : Lifecycle).clientNewRest
        rc memory) true afterFailure
  | .clientRef h => s.bteClientRef h
  | .clientUnref h => s.bteClientUnref h
  | .setStatus status =>
    { s with
      dev := bteHciDevSetStatus s.dev (fun _ dev => (false, dev)) status
      failed := s.failed || decide (status = .failed) }

namespace LifecycleOp

/-- What the callers keep to: memory is not given out twice, references are used by those that hold them, and a driver
reports only after it has been started. -/
def Legal (s : Lifecycle) : LifecycleOp → Prop
  | .clientNew _ memory => ∀ h ∈ memory, s.refCount h = 0
  | .driverReturns _ memory => s.driverInits ≠ [] ∧ ∀ h ∈ memory, s.refCount h = 0
  | .clientRef h => 0 < s.refCount h
  | .clientUnref h => 0 < s.refCount h
  | .setStatus _ => s.driverStarted = true

instance (s : Lifecycle) : ∀ o : LifecycleOp, Decidable (o.Legal s)
  | .clientNew _ memory => inferInstanceAs (Decidable (∀ h ∈ memory, s.refCount h = 0))
  | .driverReturns _ memory => inferInstanceAs (Decidable (_ ∧ ∀ h ∈ memory, s.refCount h = 0))
  | .clientRef _ => inferInstanceAs (Decidable (0 < _))
  | .clientUnref _ => inferInstanceAs (Decidable (0 < _))
  | .setStatus _ => inferInstanceAs (Decidable (_ = _))

/-- There is memory for a client, and room in the table. -/
def HasRoom (s : Lifecycle) (memory : Option Hci) : Prop := memory.isSome = true ∧ ∃ i, s.dev.clients i = none

instance (s : Lifecycle) (memory : Option Hci) : Decidable (HasRoom s memory) :=
  inferInstanceAs (Decidable (_ ∧ ∃ _ : Fin 4, _))

/-- No client is made on a status that has outlived the backend: not after a failure that the driver has not reported,
and not after the last client has been freed. -/
def Careful (s : Lifecycle) : LifecycleOp → Prop
  | .clientNew _ memory => HasRoom s memory → s.dev.initStatus = .uninitialized ∨ s.dev.initStatus = .failed ∨
      s.failed = false ∧ s.released = false
  | .driverReturns rc memory => HasRoom s memory → rc < 0 ∨ s.released = false
  | _ => True

instance (s : Lifecycle) : ∀ o : LifecycleOp, Decidable (o.Careful s)
  | .clientNew _ memory => inferInstanceAs (Decidable (HasRoom s memory → _ ∨ _ ∨ _))
  | .driverReturns _ memory => inferInstanceAs (Decidable (HasRoom s memory → _ ∨ _))
  | .clientRef _ | .clientUnref _ | .setStatus _ => .isTrue trivial

end LifecycleOp

/-! ## The client table -/

/-- What the life of the backend depends on is the same. -/
structure SameDevice (dev dev' : HciDev) : Prop where
  initStatus : dev'.initStatus = dev.initStatus
  clients : dev'.clients = dev.clients
  calls : dev'.calls = dev.calls

theorem sameDevice_dispose (h : Hci) : ∀ (l : List (Fin 8)) (dev : HciDev), SameDevice dev (l.foldl (fun dev i =>
    if bteDataMatcherIsEmpty (dev.pendingCommands i).matcher = false ∧ (dev.pendingCommands i).hci = some h
    then bteHciDevFreeCommand dev i else dev) dev)
  | [], _ => ⟨rfl, rfl, rfl⟩
  | i :: l, dev => by
    rw [List.foldl_cons]
    split
    · obtain ⟨hs, hc, hl⟩ := sameDevice_dispose h l (bteHciDevFreeCommand dev i)
      exact ⟨hs, hc, hl⟩
    · exact sameDevice_dispose h l dev

/-- Freeing a client empties its entries, and takes the backend down when no other entry is left. -/
theorem removeClient_spec (dev : HciDev) (h : Hci) :
    (bteHciDevRemoveClient dev h).initStatus = dev.initStatus ∧
    (bteHciDevRemoveClient dev h).clients = (fun i => if dev.clients i = some h then none else dev.clients i) ∧
    (bteHciDevRemoveClient dev h).calls =
      dev.calls ++ if Lifecycle.NoClient (bteHciDevRemoveClient dev h) then [.deinit] else [] := by
  obtain ⟨hs, hc, hl⟩ : SameDevice dev (hciDevDispose dev h) := sameDevice_dispose h (List.finRange 8) dev
  unfold bteHciDevRemoveClient
  generalize hciDevDispose dev h = d at hs hc hl
  have hempty : ((List.finRange 4).all fun i => (if d.clients i = some h then none else d.clients i).isNone) = true ↔
      ∀ i, (if d.clients i = some h then none else d.clients i) = none := by
    simp [List.all_eq_true]
  simp only
  split
  · rename_i he
    refine ⟨hs, by rw [← hc]; rfl, ?_⟩
    have hn : Lifecycle.NoClient (HciDev.call { d with
        clients := fun i => if d.clients i = some h then none else d.clients i } .deinit) := hempty.mp he
    rw [if_pos hn, ← hl]
    rfl
  · rename_i he
    refine ⟨hs, by rw [← hc], ?_⟩
    have hn : ¬ Lifecycle.NoClient { d with
        clients := fun i => if d.clients i = some h then none else d.clients i } := fun hn => he (hempty.mpr hn)
    rw [if_neg hn, List.append_nil]
    exact hl

/-- A client is put in a free entry, if there is one. -/
theorem clientNew_spec (dev : HciDev) (h : Hci) :
    (bteClientNew dev h).initStatus = dev.initStatus ∧ (bteClientNew dev h).calls = dev.calls ∧
    ((∃ i, dev.clients i = none ∧ (bteHciDevAddClient dev h).1 = true ∧
      (bteClientNew dev h).clients = Function.update dev.clients i (some h)) ∨
    (¬ ∃ i, dev.clients i = none) ∧ (bteHciDevAddClient dev h).1 = false ∧ (bteClientNew dev h).clients = dev.clients) := by
  unfold bteClientNew bteHciDevAddClient
  simp only [HciDev.setAsyncCmdData]
  split
  · rename_i i hf
    exact ⟨rfl, rfl, .inl ⟨i, by simpa using List.find?_some hf, rfl, rfl⟩⟩
  · rename_i hf
    refine ⟨rfl, rfl, .inr ⟨fun ⟨i, hi⟩ => ?_, rfl, rfl⟩⟩
    have := List.find?_eq_none.mp hf i (List.mem_finRange i)
    simp [hi] at this

theorem notify_same (dev : HciDev) (l : List (Fin 4)) :
    (l.foldl (notifyInitialized fun _ dev => (false, dev)) dev).initStatus = dev.initStatus ∧
    (l.foldl (notifyInitialized fun _ dev => (false, dev)) dev).clients = dev.clients := by
  induction l generalizing dev with
  | nil => exact ⟨rfl, rfl⟩
  | cons i l ih =>
    rw [List.foldl_cons, (ih _).1, (ih _).2]
    unfold notifyInitialized
    simp only
    split
    · exact ⟨rfl, rfl⟩
    · split <;> exact ⟨rfl, rfl⟩

theorem setStatus_spec (dev : HciDev) (status : InitStatus) :
    (bteHciDevSetStatus dev (fun _ dev => (false, dev)) status).initStatus = status ∧
    (bteHciDevSetStatus dev (fun _ dev => (false, dev)) status).clients = dev.clients := by
  unfold bteHciDevSetStatus
  simp only
  split
  · exact notify_same _ _
  · exact ⟨rfl, rfl⟩

/-! ## What the flags and the table say of each other -/

namespace Lifecycle

/-- What every legal run keeps, careful or not. -/
structure Base (s : Lifecycle) : Prop where
  held : ∀ h, 0 < s.refCount h ↔ ∃ i, s.dev.clients i = some h
  up : s.driverStarted = true → s.released = false → s.backendUp = true
  down : s.released = true → s.backendUp = false
  started : s.dev.initStatus ≠ .uninitialized → s.driverStarted = true ∨ s.failed = true
  running : s.driverInits ≠ [] → s.driverStarted = true

/-- Every client lives on a backend that is up; and no client was made after a failure without initialising the backend
again. -/
def Sound (s : Lifecycle) : Prop :=
  (∀ h, 0 < s.refCount h → s.backendUp = true) ∧
  ∀ a ∈ s.answers, a.afterFailure = true → a.client = none ∨ a.initialised = true

/-- The same for `Base` and `Sound`. -/
structure Same (s s' : Lifecycle) : Prop where
  initStatus : s'.dev.initStatus = s.dev.initStatus
  clients : s'.dev.clients = s.dev.clients
  refCount : s'.refCount = s.refCount
  driverInits : s'.driverInits = s.driverInits
  driverStarted : s'.driverStarted = s.driverStarted
  backendUp : s'.backendUp = s.backendUp
  failed : s'.failed = s.failed
  released : s'.released = s.released
  answers : s'.answers = s.answers

theorem Same.base {s s' : Lifecycle} (h : Same s s') (hb : Base s) : Base s' where
  held := by rw [h.refCount, h.clients]; exact hb.held
  up := by rw [h.driverStarted, h.released, h.backendUp]; exact hb.up
  down := by rw [h.released, h.backendUp]; exact hb.down
  started := by rw [h.initStatus, h.driverStarted, h.failed]; exact hb.started
  running := by rw [h.driverInits, h.driverStarted]; exact hb.running

/-- The state with a client in an entry of the table. -/
def withClient (s : Lifecycle) (i : Fin 4) (h : Hci) : Lifecycle :=
  { s with
    dev := { s.dev with clients := Function.update s.dev.clients i (some h) }
    refCount := Function.update s.refCount h 1 }

theorem withClient_base {s : Lifecycle} (hb : Base s) {i : Fin 4} (hi : s.dev.clients i = none) (h : Hci) :
    Base (s.withClient i h) where
  held := by
    intro h'
    simp only [withClient]
    by_cases he : h' = h
    · subst he
      exact ⟨fun _ => ⟨i, by simp⟩, fun _ => by simp⟩
    · rw [Function.update_of_ne he, hb.held h']
      constructor
      · rintro ⟨j, hj⟩
        have hji : j ≠ i := by rintro rfl; rw [hi] at hj; cases hj
        exact ⟨j, by rw [Function.update_of_ne hji, hj]⟩
      · rintro ⟨j, hj⟩
        by_cases hji : j = i
        · subst hji
          rw [Function.update_self, Option.some.injEq] at hj
          exact absurd hj.symm he
        · exact ⟨j, by rwa [Function.update_of_ne hji] at hj⟩
  up := hb.up
  down := hb.down
  started := hb.started
  running := hb.running

/-- What freeing a client does: its entries of the table are emptied, and with the last entry the backend goes. -/
structure Frees (s : Lifecycle) (h : Hci) (s' : Lifecycle) : Prop where
  initStatus : s'.dev.initStatus = s.dev.initStatus
  clients : s'.dev.clients = fun i => if s.dev.clients i = some h then none else s.dev.clients i
  refCount : s'.refCount = s.refCount
  driverInits : s'.driverInits = s.driverInits
  driverStarted : s'.driverStarted = s.driverStarted
  failed : s'.failed = s.failed
  answers : s'.answers = s.answers
  backend : NoClient s'.dev ∧ s'.backendUp = false ∧ s'.released = true ∨
    ¬ NoClient s'.dev ∧ s'.backendUp = s.backendUp ∧ s'.released = s.released

theorem clientFree_frees (s : Lifecycle) (h : Hci) : Frees s h (s.bteClientFree h) := by
  obtain ⟨hs, hc, hl⟩ := removeClient_spec s.dev h
  unfold bteClientFree
  generalize bteHciDevRemoveClient s.dev h = dev at hs hc hl
  refine ⟨hs, hc, rfl, rfl, rfl, rfl, rfl, ?_⟩
  simp only [hl]
  by_cases hn : NoClient dev
  · refine .inl ⟨hn, ?_, ?_⟩
    · rw [if_pos hn]
      simp
    · simp [hn]
  · refine .inr ⟨hn, ?_, ?_⟩
    · rw [if_neg hn]
      simp
    · simp [hn]

theorem Frees.base {s s₁ s' : Lifecycle} {h : Hci} (hf : Frees s₁ h s')
    (h₁ : s₁ = { s with refCount := Function.update s.refCount h 0 }) (hb : Base s) : Base s' where
  held := by
    intro h'
    rw [hf.clients, hf.refCount, h₁]
    simp only
    by_cases he : h' = h
    · subst he
      rw [Function.update_self]
      refine ⟨fun hlt => absurd hlt (Nat.lt_irrefl 0), ?_⟩
      rintro ⟨i, hi⟩
      by_cases hci : s.dev.clients i = some h'
      · rw [if_pos hci] at hi; cases hi
      · rw [if_neg hci] at hi; exact absurd hi hci
    · rw [Function.update_of_ne he, hb.held h']
      refine exists_congr fun i => ?_
      by_cases hci : s.dev.clients i = some h
      · rw [if_pos hci, hci, Option.some.injEq]
        exact ⟨fun e => absurd e.symm he, fun e => by cases e⟩
      · rw [if_neg hci]
  up := by
    rw [hf.driverStarted, h₁]
    intro hst hrel
    rcases hf.backend with ⟨-, -, hrt⟩ | ⟨-, hu, hrs⟩
    · rw [hrt] at hrel; cases hrel
    · rw [hu, h₁]; exact hb.up hst (by rw [hrs, h₁] at hrel; exact hrel)
  down := by
    intro hrel
    rcases hf.backend with ⟨-, hu, -⟩ | ⟨-, hu, hrs⟩
    · exact hu
    · rw [hu, h₁]; exact hb.down (by rw [hrs, h₁] at hrel; exact hrel)
  started := by rw [hf.initStatus, hf.driverStarted, hf.failed, h₁]; exact hb.started
  running := by rw [hf.driverInits, hf.driverStarted, h₁]; exact hb.running

theorem clientUnref_base {s : Lifecycle} (hb : Base s) (h : Hci) : Base (s.bteClientUnref h) := by
  unfold bteClientUnref
  simp only
  split
  · rename_i hone
    exact (clientFree_frees _ h).base (by rw [hone]) hb
  · rename_i hone
    refine ⟨fun h' => ?_, hb.up, hb.down, hb.started, hb.running⟩
    rw [← hb.held h']
    simp only
    by_cases he : h' = h
    · subst he
      rw [Function.update_self]
      omega
    · rw [Function.update_of_ne he]

/-- What the rest of `bte_client_new` comes to: a client in a free entry, or nothing.  A client that finds the table full
is freed again, which leaves the entries of the others alone. -/
theorem clientNewRest_cases {s : Lifecycle} (hb : Base s) (rc : Int) {memory : Option Hci}
    (hm : ∀ h ∈ memory, s.refCount h = 0) :
    (∃ h i, 0 ≤ rc ∧ LifecycleOp.HasRoom s memory ∧ s.dev.clients i = none ∧ (s.clientNewRest rc memory).1 = some h ∧
      Same (s.withClient i h) (s.clientNewRest rc memory).2) ∨
    ((rc < 0 ∨ ¬ LifecycleOp.HasRoom s memory) ∧ (s.clientNewRest rc memory).1 = none ∧
      Same s (s.clientNewRest rc memory).2) := by
  unfold clientNewRest
  split
  · rename_i hrc
    exact .inr ⟨.inl hrc, rfl, ⟨rfl, rfl, rfl, rfl, rfl, rfl, rfl, rfl, rfl⟩⟩
  · rename_i hrc
    split
    · exact .inr ⟨.inr (fun hr => nomatch hr.1), rfl, ⟨rfl, rfl, rfl, rfl, rfl, rfl, rfl, rfl, rfl⟩⟩
    · rename_i h
      obtain ⟨hs, -, ⟨i, hi, hadd, hc⟩ | ⟨hfull, hadd, hc⟩⟩ := clientNew_spec s.dev h
      · rw [hadd]
        exact .inl ⟨h, i, by omega, ⟨rfl, i, hi⟩, hi, rfl, ⟨hs, hc, rfl, rfl, rfl, rfl, rfl, rfl, rfl⟩⟩
      · rw [hadd]
        refine .inr ⟨.inr fun hr => hfull hr.2, rfl, ?_⟩
        have hzero : s.refCount h = 0 := hm h rfl
        have hother : ∀ i, s.dev.clients i ≠ some h := by
          intro i hi
          have := (hb.held h).mpr ⟨i, hi⟩
          omega
        simp only [Bool.false_eq_true, if_false, bteClientUnref, Function.update_self, if_true]
        generalize hs₁ : ({ s with
            dev := bteClientNew s.dev h
            refCount := Function.update (Function.update s.refCount h 1) h (1 - 1) } : Lifecycle) = s₁
        have hf := clientFree_frees s₁ h
        generalize s₁.bteClientFree h = s' at hf
        have hkept : s'.dev.clients = s.dev.clients := by
          rw [hf.clients, ← hs₁]
          funext i
          rw [hc, if_neg (hother i)]
        have hsome : ¬ NoClient s'.dev := by
          intro hn
          exact hfull ⟨0, by rw [← hkept]; exact hn 0⟩
        obtain ⟨hn, -, -⟩ | ⟨-, hu, hr⟩ := hf.backend
        · exact absurd hn hsome
        · subst hs₁
          refine ⟨hf.initStatus.trans hs, hkept, ?_, hf.driverInits, hf.driverStarted, hu, hf.failed, hr, hf.answers⟩
          rw [hf.refCount]
          funext h'
          by_cases he : h' = h
          · subst he; simp [hzero]
          · simp [Function.update_of_ne he]

theorem answer_base {r : Option Hci × Lifecycle} (hb : Base r.2) (initialised afterFailure : Bool) :
    Base (answer r initialised afterFailure) := ⟨hb.held, hb.up, hb.down, hb.started, hb.running⟩

theorem clientNewRest_base {s : Lifecycle} (hb : Base s) (rc : Int) {memory : Option Hci}
    (hm : ∀ h ∈ memory, s.refCount h = 0) : Base (s.clientNewRest rc memory).2 := by
  obtain ⟨h, i, -, -, hi, -, hsame⟩ | ⟨-, -, hsame⟩ := clientNewRest_cases hb rc hm
  · exact hsame.base (withClient_base hb hi h)
  · exact hsame.base hb

/-- The three ways through `_bte_hci_dev_init` up to the driver. -/
theorem hciDevInit_cases (s : Lifecycle) (backend : Int) :
    (s.dev.initStatus ≠ .uninitialized ∧
      s.bteHciDevInit backend = (some (if s.dev.initStatus = .failed then -eio else 0), s)) ∨
    (s.dev.initStatus = .uninitialized ∧ backend < 0 ∧ s.bteHciDevInit backend =
      (some backend, { s with dev := { s.dev with initStatus := .initializing }, failed := true })) ∨
    (s.dev.initStatus = .uninitialized ∧ 0 ≤ backend ∧ s.bteHciDevInit backend =
      (none, { s with
        dev := { s.dev with initStatus := .initializing }
        driverStarted := true
        backendUp := true
        failed := false
        released := false })) := by
  unfold bteHciDevInit
  by_cases hst : s.dev.initStatus = .uninitialized
  · rw [if_neg (by simp [hst])]
    by_cases hbk : backend < 0
    · exact .inr (.inl ⟨hst, hbk, by simp only [hbk, if_true]⟩)
    · exact .inr (.inr ⟨hst, by omega, by simp only [hbk, if_false]⟩)
  · exact .inl ⟨hst, by rw [if_pos hst]⟩

theorem step_base {s : Lifecycle} (hb : Base s) {o : LifecycleOp} (hl : o.Legal s) : Base (s.step o) := by
  cases o with
  | clientNew backend memory =>
    unfold step
    obtain ⟨-, hi⟩ | ⟨-, -, hi⟩ | ⟨-, -, hi⟩ := hciDevInit_cases s backend <;> simp only [hi]
    · exact answer_base (clientNewRest_base hb _ hl) _ _
    · have hb' : Base { s with dev := { s.dev with initStatus := .initializing }, failed := true } :=
        ⟨hb.held, hb.up, hb.down, fun _ => .inr rfl, hb.running⟩
      exact answer_base (clientNewRest_base hb' _ hl) _ _
    · exact ⟨hb.held, fun _ _ => rfl, fun h => (by cases h), fun _ => .inl rfl, fun _ => rfl⟩
  | driverReturns rc memory =>
    unfold step
    obtain ⟨hne, hm⟩ := hl
    have hst := hb.running hne
    cases hd : s.driverInits with
    | nil => exact absurd hd hne
    | cons afterFailure driverInits =>
      have hb' : Base { s with driverInits := driverInits, failed := s.failed || decide (rc < 0) } :=
        ⟨hb.held, hb.up, hb.down, fun _ => .inl hst, fun _ => hst⟩
      exact answer_base (clientNewRest_base hb' rc hm) true afterFailure
  | clientRef h =>
    refine ⟨fun h' => ?_, hb.up, hb.down, hb.started, hb.running⟩
    show 0 < Function.update s.refCount h (s.refCount h + 1) h' ↔ ∃ i, s.dev.clients i = some h'
    rw [← hb.held h']
    have hpos : 0 < s.refCount h := hl
    by_cases he : h' = h
    · subst he
      rw [Function.update_self]
      omega
    · rw [Function.update_of_ne he]
  | clientUnref h => exact clientUnref_base hb h
  | setStatus status =>
    obtain ⟨-, hc⟩ := setStatus_spec s.dev status
    have hst : s.driverStarted = true := hl
    refine ⟨fun h => ?_, hb.up, hb.down, fun _ => .inl hst, hb.running⟩
    show 0 < s.refCount h ↔ ∃ i, (bteHciDevSetStatus s.dev (fun _ dev => (false, dev)) status).clients i = some h
    rw [hc]
    exact hb.held h

/-! ## Careful runs are sound, and no others -/

theorem Same.sound {s s' : Lifecycle} (h : Same s s') (hs : Sound s) : Sound s' := by
  unfold Sound
  rw [h.refCount, h.backendUp, h.answers]
  exact hs

theorem sound_answer {r : Option Hci × Lifecycle} {initialised afterFailure : Bool} :
    Sound (answer r initialised afterFailure) ↔
      Sound r.2 ∧ (afterFailure = true → r.1 = none ∨ initialised = true) := by
  simp only [Sound, answer, List.mem_append, List.mem_singleton]
  constructor
  · rintro ⟨hu, ha⟩
    exact ⟨⟨hu, fun a hm => ha a (.inl hm)⟩, ha _ (.inr rfl)⟩
  · rintro ⟨⟨hu, ha⟩, hr⟩
    refine ⟨hu, fun a hm => ?_⟩
    rcases hm with hm | rfl
    · exact ha a hm
    · exact hr

/-- A client that is put in the table is served exactly when the backend is up. -/
theorem sound_withClient {s s' : Lifecycle} (hs : Sound s) {i : Fin 4} {h : Hci} (hsame : Same (s.withClient i h) s') :
    Sound s' ↔ s.backendUp = true := by
  unfold Sound
  rw [hsame.refCount, hsame.backendUp, hsame.answers]
  refine ⟨fun hs' => hs'.1 h ?_, fun hu => ⟨fun _ _ => hu, hs.2⟩⟩
  simp [withClient]

/-- A `bte_client_new` that finds the initialization begun. -/
theorem clientNew_begun {s : Lifecycle} (hb : Base s) (hs : Sound s) {memory : Option Hci}
    (hm : ∀ h ∈ memory, s.refCount h = 0) (hst : s.dev.initStatus ≠ .uninitialized) (backend : Int) :
    Sound (answer (s.clientNewRest (if s.dev.initStatus = .failed then -eio else 0) memory) false s.failed) ↔
      (LifecycleOp.clientNew backend memory).Careful s := by
  rw [sound_answer]
  simp only [LifecycleOp.Careful]
  obtain ⟨h, i, hrc, hroom, hi, hret, hsame⟩ | ⟨hno, hret, hsame⟩ :=
    clientNewRest_cases hb (if s.dev.initStatus = .failed then -eio else 0) hm
  · have hnf : s.dev.initStatus ≠ .failed := by
      intro hf
      rw [if_pos hf] at hrc
      exact absurd hrc (by decide)
    have hcare : (LifecycleOp.HasRoom s memory → s.dev.initStatus = .uninitialized ∨ s.dev.initStatus = .failed ∨
        s.failed = false ∧ s.released = false) ↔ s.failed = false ∧ s.released = false := by
      simp [hroom, hst, hnf]
    rw [sound_withClient hs hsame, hret, hcare]
    constructor
    · rintro ⟨hu, hf⟩
      refine ⟨by simpa using hf, ?_⟩
      cases hrel : s.released with
      | false => rfl
      | true => rw [hb.down hrel] at hu; cases hu
    · rintro ⟨hf, hrel⟩
      have hstarted : s.driverStarted = true := by
        rcases hb.started hst with h | h
        · exact h
        · rw [hf] at h; cases h
      exact ⟨hb.up hstarted hrel, by rw [hf]; simp⟩
  · rw [hret]
    refine ⟨fun _ hroom => ?_, fun _ => ⟨hsame.sound hs, fun _ => .inl rfl⟩⟩
    rcases hno with hrc | hno
    · by_cases hf : s.dev.initStatus = .failed
      · exact .inr (.inl hf)
      · rw [if_neg hf] at hrc
        exact absurd hrc (by decide)
    · exact absurd hroom hno

theorem clientUnref_sound {s : Lifecycle} (hb : Base s) (hs : Sound s) (h : Hci) : Sound (s.bteClientUnref h) := by
  have hb' := clientUnref_base hb h
  unfold bteClientUnref at hb' ⊢
  simp only at hb' ⊢
  split
  · rename_i hone
    rw [if_pos hone] at hb'
    have hf := clientFree_frees { s with refCount := Function.update s.refCount h (s.refCount h - 1) } h
    generalize bteClientFree _ h = s' at hb' hf
    refine ⟨fun h' hpos => ?_, by rw [hf.answers]; exact hs.2⟩
    -- another client is left, so the backend stays
    obtain ⟨i, hi⟩ := (hb'.held h').mp hpos
    rcases hf.backend with ⟨hn, -, -⟩ | ⟨-, hu, -⟩
    · rw [hn i] at hi; cases hi
    · rw [hu]
      rw [hf.refCount] at hpos
      by_cases he : h' = h
      · subst he; simp [hone] at hpos
      · exact hs.1 h' (by simpa [Function.update_of_ne he] using hpos)
  · refine ⟨fun h' hpos => ?_, hs.2⟩
    by_cases he : h' = h
    · subst he
      simp only [Function.update_self] at hpos
      exact hs.1 h' (by omega)
    · simp only [Function.update_of_ne he] at hpos
      exact hs.1 h' hpos

/-- One step keeps the property exactly when it is careful. -/
theorem step_sound_iff {s : Lifecycle} (hb : Base s) (hs : Sound s) {o : LifecycleOp} (hl : o.Legal s) :
    Sound (s.step o) ↔ o.Careful s := by
  cases o with
  | clientNew backend memory =>
    unfold step
    obtain ⟨hst, hi⟩ | ⟨hst, hbk, hi⟩ | ⟨hst, hbk, hi⟩ := hciDevInit_cases s backend <;> simp only [hi]
    · exact clientNew_begun hb hs hl hst backend
    · have hrest : ∀ s' : Lifecycle, s'.clientNewRest backend memory = (none, s') := by
        intro s'
        unfold clientNewRest
        rw [if_pos hbk]
      rw [hrest, sound_answer]
      exact ⟨fun _ _ => .inl hst, fun _ => ⟨hs, fun _ => .inl rfl⟩⟩
    · exact ⟨fun _ _ => .inl hst, fun _ => ⟨fun _ _ => rfl, hs.2⟩⟩
  | driverReturns rc memory =>
    unfold step
    obtain ⟨hne, hm⟩ := hl
    have hstarted := hb.running hne
    cases hd : s.driverInits with
    | nil => exact absurd hd hne
    | cons afterFailure driverInits =>
      simp only [LifecycleOp.Careful]
      have hb' : Base { s with driverInits := driverInits, failed := s.failed || decide (rc < 0) } :=
        ⟨hb.held, hb.up, hb.down, fun _ => .inl hstarted, fun _ => hstarted⟩
      rw [sound_answer]
      obtain ⟨h, i, hrc, hroom, hi, hret, hsame⟩ | ⟨hno, hret, hsame⟩ := clientNewRest_cases hb' rc hm
      · have hs' : Sound { s with driverInits := driverInits, failed := s.failed || decide (rc < 0) } := hs
        rw [sound_withClient hs' hsame]
        constructor
        · rintro ⟨hu, -⟩ -
          refine .inr ?_
          cases hrel : s.released with
          | false => rfl
          | true => exact absurd ((hb.down hrel).symm.trans hu) (by simp)
        · intro hc
          rcases hc hroom with hneg | hrel
          · omega
          · exact ⟨hb.up hstarted hrel, fun _ => .inr rfl⟩
      · refine ⟨fun _ hroom => ?_, fun _ => ⟨hsame.sound hs, fun _ => .inr rfl⟩⟩
        rcases hno with hrc | hno
        · exact .inl hrc
        · exact absurd hroom hno
  | clientRef h =>
    refine ⟨fun _ => trivial, fun _ => ⟨fun h' hpos => ?_, hs.2⟩⟩
    by_cases he : h' = h
    · subst he
      exact hs.1 h' hl
    · simp only [step, bteClientRef, Function.update_of_ne he] at hpos
      exact hs.1 h' hpos
  | clientUnref h => exact ⟨fun _ => trivial, fun _ => clientUnref_sound hb hs h⟩
  | setStatus status => exact ⟨fun _ => trivial, fun _ => hs⟩

theorem init_base : Base init where
  held _ := ⟨fun hlt => absurd hlt (Nat.lt_irrefl 0), fun ⟨_, hi⟩ => nomatch hi⟩
  up h := nomatch h
  down h := nomatch h
  started h := absurd rfl h
  running h := absurd rfl h

theorem init_sound : Sound init := ⟨fun _ hlt => absurd hlt (Nat.lt_irrefl 0), fun _ ha => nomatch ha⟩

theorem run_sound_iff : ∀ (ops : List LifecycleOp) {s : Lifecycle}, Base s → Sound s →
    Sys.Admissible step (fun s o => o.Legal s) s ops →
    ((∀ pre, pre <+: ops → Sound (Sys.run step s pre)) ↔ Sys.Admissible step (fun s o => o.Careful s) s ops)
  | [], s, _, hs, _ => by simpa [Sys.Admissible] using hs
  | o :: ops, s, hb, hs, ⟨hl, hls⟩ => by
    have hone := step_sound_iff hb hs hl
    constructor
    · intro h
      have hs' : Sound (s.step o) := h [o] (by simp)
      refine ⟨hone.mp hs', (run_sound_iff ops (step_base hb hl) hs' hls).mp fun pre hpre => ?_⟩
      exact h (o :: pre) (List.cons_prefix_cons.mpr ⟨rfl, hpre⟩)
    · rintro ⟨hc, hcs⟩ pre hpre
      cases pre with
      | nil => exact hs
      | cons o' pre =>
        obtain ⟨rfl, hrest⟩ := List.cons_prefix_cons.mp hpre
        exact (run_sound_iff ops (step_base hb hl) (hone.mpr hc) hls).mpr hcs pre hrest

end Lifecycle

/-- **The life of the backend.**  Every state of a run is sound, with each client on a backend that is up and each failed
initialisation made up for, exactly when every client is made carefully. -/
theorem lifecycle_iff (ops : List LifecycleOp) (hl : Sys.Admissible Lifecycle.step (fun s o => o.Legal s) .init ops) :
    (∀ pre, pre <+: ops → (Sys.run Lifecycle.step .init pre).Sound) ↔
      Sys.Admissible Lifecycle.step (fun s o => o.Careful s) .init ops :=
  Lifecycle.run_sound_iff ops Lifecycle.init_base Lifecycle.init_sound hl

/-- The driver makes a client, its initialisation succeeds, and it drops the client; another client comes and goes; the
controller then fails, and the next client is refused. -/
def orderlyRun : List LifecycleOp :=
  [.clientNew 0 none, .clientNew 0 (some 1), .driverReturns 0 (some 0), .setStatus .initialized, .clientUnref 1,
    .clientNew 0 (some 2), .clientRef 0, .clientUnref 2, .clientUnref 0, .setStatus .failed, .clientNew 0 (some 3)]

theorem lifecycle_iff_orderly :
    (Sys.run Lifecycle.step .init orderlyRun).answers.map Answer.client = [some 1, some 0, some 2, none] ∧
    ∀ pre, pre <+: orderlyRun → (Sys.run Lifecycle.step .init pre).Sound :=
  ⟨by decide, (lifecycle_iff orderlyRun (by decide)).mpr (by decide)⟩

/-- The backend fails to start and is not tried again; and a backend that went with its last client is not started again:
each time the next client is made without one. -/
theorem lifecycle_not_sound :
    (Sys.Admissible Lifecycle.step (fun s o => o.Legal s) .init
        [.clientNew (-1) (some 0), .clientNew 0 (some 0)] ∧
      ¬ (Sys.run Lifecycle.step .init [.clientNew (-1) (some 0), .clientNew 0 (some 0)]).Sound) ∧
    (Sys.Admissible Lifecycle.step (fun s o => o.Legal s) .init
        [.clientNew 0 none, .driverReturns 0 (some 0), .setStatus .initialized, .clientUnref 0, .clientNew 0 (some 1)] ∧
      ¬ (Sys.run Lifecycle.step .init
        [.clientNew 0 none, .driverReturns 0 (some 0), .setStatus .initialized, .clientUnref 0,
          .clientNew 0 (some 1)]).Sound) := by
  refine ⟨⟨by decide, fun h => ?_⟩, ⟨by decide, fun h => ?_⟩⟩
  · exact absurd (h.1 0 (by decide)) (by decide)
  · exact absurd (h.1 1 (by decide)) (by decide)

end Bte
