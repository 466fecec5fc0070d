import BtEmbedded.HciReplies
import BtEmbedded.Lib.Pipeline
/-!
# CommandExchange — the clients, the pending table and the controller (hci.c, hci_dev.c)

Clients give commands without waiting for the replies: the bytes go to the controller, which carries them out in order
and answers each with a Command Complete, and a slot of the pending table remembers who is to be told.  Meanwhile clients
use the rest of the library, their callbacks do, and other events arrive.

The controller is a parameter: a machine over the commands of `HciCall` that answers each with a reply of its kind.  What
the clients are told is what this machine answers when each command is carried out at the moment it is given
(`exchange_sequential`), the bytes of both directions, the queues and the table being between them.  This needs that no
two slots have the same matcher: after a command was repeated behind a hole, the second client is told the reply to the
first one's (`exchange_crossed`).
-/
namespace Bte

open Bytes DataMatcher

/-! ## The parties -/

/-- A command a client gives, and whom to tell. -/
structure HciRequest where
  hci : Hci
  call : HciCall
  clientCb : FnPtr
  userdata : Ptr

/-- A call of a client's function with a reply. -/
structure Told where
  clientCb : FnPtr
  hci : Option Hci
  userdata : Ptr
  reply : HciReply
deriving DecidableEq

structure HciAnswer where
  request : HciRequest
  reply : HciReply

/-- The reply is one that the command's function reads. -/
def HciCall.Answers (c : HciCall) (r : HciReply) : Prop := (∃ f, c.completeFn = some f ∧ r.For f) ∧ r.Fits

/-- A controller: what a command does, given a choice of its own, and the reply. -/
structure Controller (σ χ : Type) where
  step : σ → HciCall → χ → σ × HciReply
  answers : ∀ (s : σ) (c : HciCall) (x : χ), c.completeFn.isSome = true → c.Answers (step s c x).2

structure Exchange (σ χ : Type) where
  dev : HciDev
  /-- `stored_keys` of the device. -/
  storedKeys : ResponseArray StoredLinkKey
  toController : List (List UInt8)
  controller : σ
  toHost : List (List UInt8)
  told : List Told
  /-- The commands that were given, and the choices the controller has made. -/
  given : List HciRequest
  choices : List χ

namespace Exchange

variable {σ χ : Type}

/-- Nothing is on its way, the device is as the clients and the driver have left it. -/
def start (dev : HciDev) (controller : σ) : Exchange σ χ := ⟨dev, .empty, [], controller, [], [], [], []⟩

def register (s : Exchange σ χ) (r : Registration) : Exchange σ χ := { s with dev := s.dev.step (.api (.register r)) }

def bteHciInquiryModeRssi : UInt8 := 1

/-- What two of the command functions do besides. -/
def prepare (s : Exchange σ χ) : HciCall → Exchange σ χ
  | .readStoredLinkKey _ => { s with storedKeys := .empty }.register .returnLinkKeys
  | .writeInquiryMode inquiryMode =>
    if inquiryMode = bteHciInquiryModeRssi then s.register .inquiryResultWithRssi else s
  | _ => s

/-- A command function. -/
def give (s : Exchange σ χ) (r : HciRequest) (mem : Nat → UInt8) : Exchange σ χ :=
  match r.call.completeFn with
  | none => s
  | some f =>
    match bteHciDevAddPendingCommand s.dev (some r.hci) r.call.build.ocf r.call.build.ogf r.call.build.len f.ptr
      r.clientCb r.userdata with
    | (none, dev) => { s with dev := dev }
    | (some _, dev) =>
      ({ s with
        dev := dev
        toController := s.toController ++ [r.call.build.bytes mem]
        given := s.given ++ [r] } : Exchange σ χ).prepare r.call

/-- The controller takes a command.  The link keys of a reply come in events before it, in groups. -/
def execute (C : Controller σ χ) (s : Exchange σ χ) (x : χ) (packets : UInt8) (groups : List (List StoredLinkKey)) :
    Exchange σ χ :=
  match s.toController with
  | [] => s
  | b :: toController =>
    match HciCall.readCommand b with
    | none => { s with toController := toController }
    | some c =>
      { s with
        toController := toController
        controller := (C.step s.controller c x).1
        toHost := s.toHost ++ (groups.map returnLinkKeys ++
          [commandComplete packets (b.take 2) (C.step s.controller c x).2.encode])
        choices := s.choices ++ [x] }

/-- The function of a reply. -/
def complete (s : Exchange σ χ) (f : CompleteFn) (hci : Option Hci) (buffer : List UInt8) (clientCb : FnPtr)
    (userdata : Ptr) : Exchange σ χ :=
  let s :=
    if f = .periodicInquiryCompleteCb ∧ replyStatus buffer = 0 then
      (s.register .inquiryResult).register .inquiryComplete
    else s
  let s :=
    if clientCb = .null then s
    else { s with told := s.told ++ [⟨clientCb, hci, userdata, f.read buffer s.storedKeys⟩] }
  if f = .readStoredLinkKeyCb then { s with storedKeys := .empty } else s

/-- The body of a function of the library that is called last. -/
def enter (fresh : Nat → StoredLinkKey) (s : Exchange σ χ) : Call → Exchange σ χ
  | .notify .returnLinkKeysCb buffer =>
    { s with storedKeys := (returnLinkKeysCb (some fresh) s.storedKeys buffer).array }
  | .complete fn hci buffer clientCb userdata =>
    match CompleteFn.ofPtr fn with
    | none => s
    | some f => s.complete f hci buffer clientCb userdata
  | _ => s

/-- An event arrives. -/
def deliver (fresh : Nat → StoredLinkKey) (s : Exchange σ χ) : Exchange σ χ :=
  match s.toHost with
  | [] => s
  | e :: toHost =>
    let dev := s.dev.step (.event e ⟨[], false⟩)
    (dev.calls.drop s.dev.calls.length).foldl (enter fresh) { s with dev := dev, toHost := toHost }

end Exchange

inductive ExchangeOp (χ : Type) where
  | give (r : HciRequest) (mem : Nat → UInt8)
  | execute (x : χ) (packets : UInt8) (groups : List (List StoredLinkKey))
  | deliver (fresh : Nat → StoredLinkKey)
  /-- Another call into the library. -/
  | api (c : ApiCall)
  /-- An event that answers none of these commands. -/
  | event (buffer : List UInt8) (callback : Callback)

namespace Exchange

variable {σ χ : Type}

def step (C : Controller σ χ) (s : Exchange σ χ) : ExchangeOp χ → Exchange σ χ
  | .give r mem => s.give r mem
  | .execute x packets groups => s.execute C x packets groups
  | .deliver fresh => s.deliver fresh
  | .api c => { s with dev := s.dev.step (.api c) }
  | .event buffer callback => { s with dev := s.dev.step (.event buffer callback) }

/-- The opcodes of the commands that are still to be answered. -/
def opcodes (s : Exchange σ χ) : List (List UInt8) :=
  s.toController.map (·.take 2) ++
    (s.toHost.filter fun e => e.getD 0 0 = hciCommandComplete).map fun e => slice e 3 2

/-- The slot waits for one of the replies. -/
def Awaits (s : Exchange σ χ) (i : Fin 8) : Prop :=
  ∃ opcode ∈ s.opcodes, (s.dev.pendingCommands i).matcher = commandMatcher hciCommandComplete opcode

end Exchange

/-- What each party relies on: the arrays of a command fit its buffer, and where the function does not check it there is
a client to call; the groups are the link keys of the reply; the clients whose commands are on their way stay; the other
events are no replies to these commands.  And no operation leaves two slots with the same matcher. -/
def ExchangeOp.Fair {σ χ : Type} (C : Controller σ χ) (s : Exchange σ χ) (o : ExchangeOp χ) : Prop :=
  (s.step C o).dev.Distinct ∧
  match o with
  | .give r _ => r.call.Fits ∧ ∀ f ∈ r.call.completeFn, f.checksNull = true ∨ r.clientCb ≠ .null
  | .execute x _ groups =>
    ∀ b ∈ s.toController.head?, ∀ c ∈ HciCall.readCommand b,
      groups.flatten = (C.step s.controller c x).2.keys ∧ ∀ g ∈ groups, g ≠ []
  | .deliver _ => True
  | .api c => ∀ i, s.Awaits i → ¬ c.Releases (s.dev.pendingCommands i)
  | .event buffer callback =>
    (Op.event buffer callback).Routable s.dev ∧ buffer.getD 0 0 ≠ hciReturnLinkKeys ∧
      (buffer.getD 0 0 = hciCommandComplete → bteHciDevFindPendingCommand s.dev buffer = none) ∧
      ∀ i, s.Awaits i → ∀ c ∈ callback.calls, ¬ c.Releases (s.dev.pendingCommands i)

/-- The controller as it would answer each command at once. -/
def Controller.server {σ χ : Type} (C : Controller σ χ) : Server σ χ HciRequest HciAnswer :=
  fun s r x => ((C.step s r.call.seen x).1, ⟨r, (C.step s r.call.seen x).2⟩)

/-- Whom an answer is told, if anybody. -/
def HciAnswer.told (a : HciAnswer) : Option Told :=
  if a.request.clientCb = .null then none
  else some ⟨a.request.clientCb, some a.request.hci, a.request.userdata, a.reply⟩

/-! ## What is on its way -/

section Way

/-- The slot holds the command. -/
def HciRequest.Kept (r : HciRequest) (dev : HciDev) (i : Fin 8) : Prop :=
  ∃ f, r.call.completeFn = some f ∧ dev.pendingCommands i =
    ⟨commandMatcher hciCommandComplete (opcodeLe r.call.build.ocf r.call.build.ogf), some r.hci, r.userdata,
      ⟨f.ptr, r.clientCb⟩⟩

/-- The events are those of the answers; of the first one, the link keys `kept` have come. -/
def OnTheWay : List StoredLinkKey → List HciAnswer → List (List UInt8) → Prop
  | kept, [], es => kept = [] ∧ es = []
  | kept, a :: as, es => ∃ (groups : List (List StoredLinkKey)) (packets : UInt8) (rest : List (List UInt8)),
      es = groups.map returnLinkKeys ++ commandComplete packets
        (opcodeLe a.request.call.build.ocf a.request.call.build.ogf) a.reply.encode :: rest ∧
      kept ++ groups.flatten = a.reply.keys ∧ (∀ g ∈ groups, g ≠ []) ∧ a.request.call.Answers a.reply ∧
      OnTheWay [] as rest

theorem length_opcodeLe (ocf : UInt16) (ogf : UInt8) : (opcodeLe ocf ogf).length = 2 := length_leBytes 2 _

theorem completeFn_seen (c : HciCall) : c.seen.completeFn = c.completeFn := by
  cases c with
  | setEventFilter filterType condType filterData =>
    simp only [HciCall.seen]
    split <;> rfl
  | _ => rfl

theorem answers_seen {c : HciCall} {r : HciReply} (h : c.seen.Answers r) : c.Answers r := by
  rwa [HciCall.Answers, completeFn_seen] at h

theorem keys_of_for {r : HciReply} {f : CompleteFn} (h : r.For f) (hf : f ≠ .readStoredLinkKeyCb) : r.keys = [] := by
  cases r with
  | storedLinkKey => exact absurd h hf
  | _ => rfl

theorem completeFn_readStoredLinkKey {c : HciCall} (h : c.completeFn = some .readStoredLinkKeyCb) :
    ∃ address, c = .readStoredLinkKey address := by
  cases c with
  | readStoredLinkKey address => exact ⟨address, rfl⟩
  | _ => cases h

/-- A further answer goes to the end. -/
theorem OnTheWay.snoc {a : HciAnswer} {groups : List (List StoredLinkKey)} (packets : UInt8)
    (hg : groups.flatten = a.reply.keys) (hne : ∀ g ∈ groups, g ≠ []) (ha : a.request.call.Answers a.reply) :
    ∀ {as : List HciAnswer} {kept : List StoredLinkKey} {es : List (List UInt8)}, OnTheWay kept as es →
      OnTheWay kept (as ++ [a]) (es ++ (groups.map returnLinkKeys ++ [commandComplete packets
        (opcodeLe a.request.call.build.ocf a.request.call.build.ogf) a.reply.encode]))
  | [], _, _, ⟨hk, he⟩ => by
    subst hk he
    exact ⟨groups, packets, [], rfl, hg, hne, ha, rfl, rfl⟩
  | _ :: as, _, _, ⟨groups', packets', rest, he, hk, hne', ha', hrest⟩ => by
    subst he
    exact ⟨groups', packets', _, by rw [List.append_assoc]; rfl, hk, hne', ha', snoc packets hg hne ha hrest⟩

/-- The Command Complete of each answer is among the events. -/
theorem OnTheWay.complete_mem {a : HciAnswer} : ∀ {as : List HciAnswer} {kept : List StoredLinkKey}
    {es : List (List UInt8)}, OnTheWay kept as es → a ∈ as →
      ∃ packets, commandComplete packets (opcodeLe a.request.call.build.ocf a.request.call.build.ogf) a.reply.encode ∈ es
  | [], _, _, _, ha => nomatch ha
  | _ :: _, _, _, ⟨_, packets, _, he, _, _, _, hrest⟩, ha => by
    subst he
    rcases List.mem_cons.1 ha with rfl | ha
    · exact ⟨packets, List.mem_append_right _ List.mem_cons_self⟩
    · obtain ⟨packets', hm⟩ := hrest.complete_mem ha
      exact ⟨packets', List.mem_append_right _ (List.mem_cons_of_mem _ hm)⟩

end Way

/-! ## The handler of the link keys -/

/-- Return Link Keys events are read. -/
def HciDev.KeysServed (dev : HciDev) : Prop := bteHciDevHandlerForEvent dev hciReturnLinkKeys = some .returnLinkKeysCb

theorem handler_install (dev : HciDev) (code : UInt8) (h : Option EventHandler) :
    bteHciDevHandlerForEvent (bteHciDevInstallEventHandler dev code h) hciReturnLinkKeys =
      if handlerIndex code = handlerIndex hciReturnLinkKeys then h
      else bteHciDevHandlerForEvent dev hciReturnLinkKeys := by
  have hkeys : handlerIndex hciReturnLinkKeys = some hciReturnLinkKeys := rfl
  unfold bteHciDevInstallEventHandler bteHciDevHandlerForEvent
  rw [hkeys]
  cases hc : handlerIndex code with
  | none => rfl
  | some k =>
    by_cases hk : k = hciReturnLinkKeys
    · simp [hk]
    · simp [hk, Ne.symm hk]

theorem Change.keysServed {F : Fin 8 → Prop} {dev dev' : HciDev} (h : Change ReadCode F dev dev') (hs : dev.KeysServed) :
    dev'.KeysServed := by
  cases h with
  | keep _ _ _ hh _ =>
    rw [HciDev.KeysServed, bteHciDevHandlerForEvent, hh]
    exact hs
  | alloc m f _ _ _ =>
    rw [allocWith_eq]
    cases dev.allocSlot m <;> exact hs
  | free => exact hs
  | store => exact hs
  | install code handler hc =>
    rw [HciDev.KeysServed, handler_install]
    split
    · rename_i hindex
      obtain rfl | ⟨rfl, hk⟩ := eq_of_handlerIndex hindex
      · cases handler <;> first | rfl | exact absurd hc (by decide)
      · exact absurd hk (by decide)
    · exact hs
  | installRead hci hE =>
    rw [HciDev.KeysServed, handler_install]
    split
    · rename_i hindex
      exact absurd (readCode_of_handlerIndex hindex.symm hE) (by decide)
    · exact hs

theorem Path.keysServed {F : Fin 8 → Prop} {dev dev' : HciDev} (h : Path ReadCode F dev dev') (hs : dev.KeysServed) :
    dev'.KeysServed := by
  induction h with
  | refl => exact hs
  | tail _ hc ih => exact hc.keysServed ih

/-! ## The simulation -/

namespace Exchange

variable {σ χ : Type}

/-- The exchange is the pipeline `p`, with bytes in its queues and slots for whom to tell. -/
structure Follows (s : Exchange σ χ) (p : Pipeline σ χ HciRequest HciAnswer) : Prop where
  table : TableInv s.dev
  routing : RoutingInv s.dev
  distinct : s.dev.Distinct
  slots : ∃ slots : List (HciRequest × Fin 8), slots.map Prod.fst = p.answered.map HciAnswer.request ++ p.queued ∧
    (slots.map Prod.snd).Nodup ∧ ∀ q ∈ slots, q.1.Kept s.dev q.2
  carried : ∃ sent : List (HciRequest × (Nat → UInt8)), p.queued = sent.map Prod.fst ∧
    s.toController = sent.map fun q => q.1.call.build.bytes q.2
  fits : ∀ r ∈ p.queued, r.call.Fits ∧ r.call.completeFn.isSome = true
  way : ∃ kept, KeysGathered s.storedKeys kept ∧ OnTheWay kept p.answered s.toHost
  served : ∀ r ∈ p.answered.map HciAnswer.request ++ p.queued,
    r.call.completeFn = some .readStoredLinkKeyCb → s.dev.KeysServed
  controller : s.controller = p.server
  given : s.given = p.issued
  choices : s.choices = p.choices
  told : s.told = p.told.filterMap HciAnswer.told

theorem follows_start {dev : HciDev} (hdev : dev.Reached) (hd : dev.Distinct) (controller : σ) :
    Follows (start dev controller : Exchange σ χ) (.start controller) := by
  obtain ⟨ops, hok, rfl⟩ := hdev
  obtain ⟨hinv, hr⟩ := routing_run ops hok
  exact ⟨hinv, hr, hd, ⟨[], rfl, List.nodup_nil, fun _ h => nomatch h⟩, ⟨[], rfl, rfl⟩, fun _ h => (nomatch h),
    ⟨[], keysGathered_empty, rfl, rfl⟩, fun _ h => (nomatch h), rfl, rfl, rfl, rfl⟩

variable {s : Exchange σ χ} {p : Pipeline σ χ HciRequest HciAnswer}

theorem occupied_kept {r : HciRequest} {dev : HciDev} {i : Fin 8} (h : r.Kept dev i) : dev.Occupied i := by
  obtain ⟨f, -, hslot⟩ := h
  rw [HciDev.Occupied, hslot]
  exact (built_command (E := ReadCode) (.inl rfl) (length_opcodeLe _ _)).not_empty

theorem kept_of_slot {r : HciRequest} {dev dev' : HciDev} {i : Fin 8} (h : r.Kept dev i)
    (hs : dev'.pendingCommands i = dev.pendingCommands i) : r.Kept dev' i := by
  obtain ⟨f, hf, hslot⟩ := h
  exact ⟨f, hf, hs.trans hslot⟩

/-- A command that is on its way is one of those the slots wait for. -/
theorem Follows.awaits (h : Follows s p) {r : HciRequest} (hr : r ∈ p.answered.map HciAnswer.request ++ p.queued)
    {i : Fin 8} (hk : r.Kept s.dev i) : s.Awaits i := by
  obtain ⟨f, -, hslot⟩ := hk
  refine ⟨opcodeLe r.call.build.ocf r.call.build.ogf, ?_, by rw [hslot]⟩
  rcases List.mem_append.1 hr with hr | hr
  · obtain ⟨a, ha, rfl⟩ := List.mem_map.1 hr
    obtain ⟨kept, -, hway⟩ := h.way
    obtain ⟨packets, hm⟩ := hway.complete_mem ha
    exact List.mem_append_right _ (List.mem_map.2 ⟨_, List.mem_filter.2 ⟨hm, rfl⟩, rfl⟩)
  · obtain ⟨sent, hqueued, hbytes⟩ := h.carried
    rw [hqueued] at hr
    obtain ⟨q, hq, rfl⟩ := List.mem_map.1 hr
    refine List.mem_append_left _ (List.mem_map.2 ⟨q.1.call.build.bytes q.2, ?_, rfl⟩)
    rw [hbytes]
    exact List.mem_map_of_mem hq

/-- **What happens to the device otherwise** leaves the slots alone. -/
theorem Follows.device (h : Follows s p) {F : Fin 8 → Prop} {dev : HciDev} (hp : Path ReadCode F s.dev dev)
    (hF : ∀ i, s.Awaits i → s.dev.Occupied i → ¬ F i) (hd : dev.Distinct) : Follows { s with dev := dev } p := by
  obtain ⟨slots, hfst, hnd, hkept⟩ := h.slots
  have hslots : ∀ q ∈ slots, q.1.Kept dev q.2 := by
    intro q hq
    have hmem : q.1 ∈ p.answered.map HciAnswer.request ++ p.queued := hfst ▸ List.mem_map_of_mem hq
    have hk := hkept q hq
    exact kept_of_slot hk (Path.slot_eq hp h.table (occupied_kept hk) (hF q.2 (h.awaits hmem hk) (occupied_kept hk)))
  exact { h with
    table := Path.tableInv hp h.table
    routing := Path.routingInv hp h.routing
    distinct := hd
    slots := ⟨slots, hfst, hnd, hslots⟩
    served := fun r hr hf => Path.keysServed hp (h.served r hr hf) }

end Exchange

namespace Exchange

variable {σ χ : Type}

theorem register_path (dev : HciDev) (r : Registration) :
    Path ReadCode (fun _ => False) dev (dev.step (.api (.register r))) :=
  .single (.install dev _ _ (by cases r <;> decide))

theorem register_slots (dev : HciDev) (r : Registration) :
    (dev.step (.api (.register r))).pendingCommands = dev.pendingCommands := install_pendingCommands ..

/-- What `prepare` makes of the device and the link keys. -/
structure Prepared (s : Exchange σ χ) (c : HciCall) (dev : HciDev) (storedKeys : ResponseArray StoredLinkKey) :
    Prop where
  eq : s.prepare c = { s with dev := dev, storedKeys := storedKeys }
  path : Path ReadCode (fun _ => False) s.dev dev
  slots : dev.pendingCommands = s.dev.pendingCommands
  keys : c.completeFn = some .readStoredLinkKeyCb ∧ storedKeys = .empty ∧ dev.KeysServed ∨
    c.completeFn ≠ some .readStoredLinkKeyCb ∧ storedKeys = s.storedKeys

theorem prepared (s : Exchange σ χ) (c : HciCall) : ∃ dev storedKeys, Prepared s c dev storedKeys := by
  cases c with
  | readStoredLinkKey address =>
    exact ⟨_, .empty, rfl, register_path _ _, register_slots _ _,
      .inl ⟨rfl, rfl, (handler_install _ _ _).trans (if_pos rfl)⟩⟩
  | writeInquiryMode inquiryMode =>
    have hother : (HciCall.writeInquiryMode inquiryMode).completeFn ≠ some .readStoredLinkKeyCb := fun h => by cases h
    by_cases hmode : inquiryMode = bteHciInquiryModeRssi
    · exact ⟨_, s.storedKeys, if_pos hmode, register_path _ _, register_slots _ _, .inr ⟨hother, rfl⟩⟩
    · exact ⟨s.dev, s.storedKeys, if_neg hmode, .refl, rfl, .inr ⟨hother, rfl⟩⟩
  | _ => exact ⟨s.dev, s.storedKeys, rfl, .refl, rfl, .inr ⟨fun h => (by cases h), rfl⟩⟩

variable {s : Exchange σ χ} {p : Pipeline σ χ HciRequest HciAnswer}

/-- When a read of the link keys gets a slot of its own, none of the keys of an earlier one has come. -/
theorem Follows.no_keys (h : Follows s p) {r : HciRequest} (hr : r.call.completeFn = some .readStoredLinkKeyCb)
    {dev : HciDev} (hd : dev.Distinct) {i : Fin 8} (hfree : ¬ s.dev.Occupied i) (hk : r.Kept dev i)
    (hsame : ∀ j, s.dev.Occupied j → dev.pendingCommands j = s.dev.pendingCommands j) {kept : List StoredLinkKey}
    (hway : OnTheWay kept p.answered s.toHost) : kept = [] := by
  cases hp : p.answered with
  | nil =>
    rw [hp] at hway
    exact hway.1
  | cons a as =>
    rw [hp] at hway
    obtain ⟨groups, -, -, -, hkeys, -, ⟨⟨f, hf, hfor⟩, -⟩, -⟩ := hway
    by_cases hread : f = .readStoredLinkKeyCb
    · subst hread
      obtain ⟨slots, hfst, -, hkept⟩ := h.slots
      have ha : a.request ∈ slots.map Prod.fst := by
        rw [hfst, hp]
        exact List.mem_cons_self
      obtain ⟨q, hq, hqa⟩ := List.mem_map.1 ha
      have hkq := hkept q hq
      have hoq := occupied_kept hkq
      have hkq' := kept_of_slot hkq (hsame q.2 hoq)
      rw [hqa] at hkq'
      obtain ⟨_, h1⟩ := completeFn_readStoredLinkKey hf
      obtain ⟨_, h2⟩ := completeFn_readStoredLinkKey hr
      have hi : q.2 = i := by
        refine hd q.2 i (occupied_kept hkq') (occupied_kept hk) ?_
        obtain ⟨_, -, hs1⟩ := hkq'
        obtain ⟨_, -, hs2⟩ := hk
        rw [hs1, hs2, h1, h2]
        exact (isSame_iff (built_command (E := ReadCode) (.inl rfl) (length_opcodeLe _ _)).wf
          (built_command (E := ReadCode) (.inl rfl) (length_opcodeLe _ _)).wf).2 rfl
      exact absurd (hi ▸ hoq) hfree
    · rw [keys_of_for hfor hread] at hkeys
      exact (List.append_eq_nil_iff.1 hkeys).1

/-- The command has got a slot. -/
theorem Follows.issue (h : Follows s p) (C : Controller σ χ) {r : HciRequest} (mem : Nat → UInt8) (hfits : r.call.Fits)
    {f : CompleteFn} (hf : r.call.completeFn = some f) {dev : HciDev} (hpath : Path ReadCode (fun _ => False) s.dev dev)
    {i : Fin 8} (hfree : ¬ s.dev.Occupied i) (hslots : dev.pendingCommands = Function.update s.dev.pendingCommands i
      ⟨commandMatcher hciCommandComplete (opcodeLe r.call.build.ocf r.call.build.ogf), some r.hci, r.userdata,
        ⟨f.ptr, r.clientCb⟩⟩)
    (hd : (({ s with
      dev := dev
      toController := s.toController ++ [r.call.build.bytes mem]
      given := s.given ++ [r] } : Exchange σ χ).prepare r.call).dev.Distinct) :
    Follows (({ s with
      dev := dev
      toController := s.toController ++ [r.call.build.bytes mem]
      given := s.given ++ [r] } : Exchange σ χ).prepare r.call) (p.step C.server (.issue r)) := by
  obtain ⟨dev', storedKeys, hprep⟩ := prepared ({ s with
    dev := dev
    toController := s.toController ++ [r.call.build.bytes mem]
    given := s.given ++ [r] } : Exchange σ χ) r.call
  rw [hprep.eq] at hd ⊢
  have hpath' : Path ReadCode (fun _ => False) s.dev dev' := hpath.trans hprep.path
  have hslots' := hprep.slots.trans hslots
  have hother : ∀ j, s.dev.Occupied j → dev'.pendingCommands j = s.dev.pendingCommands j := by
    intro j hj
    have hne : j ≠ i := fun hji => hfree (hji ▸ hj)
    rw [hslots', Function.update_of_ne hne]
  have hown : r.Kept dev' i := ⟨f, hf, by rw [hslots', Function.update_self]⟩
  obtain ⟨slots, hfst, hnd, hkept⟩ := h.slots
  obtain ⟨sent, hqueued, hbytes⟩ := h.carried
  obtain ⟨kept, hgathered, hway⟩ := h.way
  refine ⟨Path.tableInv hpath' h.table, Path.routingInv hpath' h.routing, hd, ⟨slots ++ [(r, i)], ?_, ?_, ?_⟩,
    ⟨sent ++ [(r, mem)], ?_, ?_⟩, ?_, ?_, ?_, h.controller, ?_, h.choices, h.told⟩
  · show (slots ++ [(r, i)]).map Prod.fst = p.answered.map HciAnswer.request ++ (p.queued ++ [r])
    rw [List.map_append, hfst, ← List.append_assoc]
    rfl
  · rw [List.map_append]
    refine List.nodup_append.2 ⟨hnd, List.nodup_singleton i, ?_⟩
    rintro j hj k hk rfl
    obtain ⟨q, hq, rfl⟩ := List.mem_map.1 hj
    have hqi : q.2 = i := List.mem_singleton.1 hk
    exact hfree (hqi ▸ occupied_kept (hkept q hq))
  · intro q hq
    rcases List.mem_append.1 hq with hq | hq
    · exact kept_of_slot (hkept q hq) (hother q.2 (occupied_kept (hkept q hq)))
    · rw [List.mem_singleton.1 hq]
      exact hown
  · show p.queued ++ [r] = _
    rw [hqueued, List.map_append]
    rfl
  · show s.toController ++ [r.call.build.bytes mem] = _
    rw [hbytes, List.map_append]
    rfl
  · intro r' hr'
    rcases List.mem_append.1 hr' with hr' | hr'
    · exact h.fits r' hr'
    · rw [List.mem_singleton.1 hr', hf]
      exact ⟨hfits, rfl⟩
  · rcases hprep.keys with ⟨hread, hempty, -⟩ | ⟨-, hsame⟩
    · have hnone := h.no_keys hread hd hfree hown hother hway
      subst hnone
      exact ⟨[], by rw [hempty]; exact keysGathered_empty, hway⟩
    · exact ⟨kept, by rw [hsame]; exact hgathered, hway⟩
  · intro r' hr' hread
    have hmem : r' ∈ (p.answered.map HciAnswer.request ++ p.queued) ++ [r] := by rwa [List.append_assoc]
    rcases List.mem_append.1 hmem with hold | hnew
    · exact Path.keysServed hpath' (h.served r' hold hread)
    · rw [List.mem_singleton.1 hnew] at hread
      rcases hprep.keys with ⟨-, -, hserved⟩ | ⟨hnot, -⟩
      · exact hserved
      · exact absurd hread hnot
  · show s.given ++ [r] = p.issued ++ [r]
    rw [h.given]

/-- **A command is given**, or refused. -/
theorem Follows.give (h : Follows s p) (C : Controller σ χ) (r : HciRequest) (mem : Nat → UInt8) (hfits : r.call.Fits)
    (hd : (s.give r mem).dev.Distinct) : ∃ ops, Follows (s.give r mem) (Sys.run (Pipeline.step C.server) p ops) := by
  unfold Exchange.give at hd ⊢
  cases hf : r.call.completeFn with
  | none => exact ⟨[], h⟩
  | some f =>
    have hpath : Path ReadCode (fun _ => False) s.dev (bteHciDevAddPendingCommand s.dev (some r.hci) r.call.build.ocf
        r.call.build.ogf r.call.build.len f.ptr r.clientCb r.userdata).2 :=
      apply_path s.dev (.command r.hci r.call.build.ocf r.call.build.ogf r.call.build.len f.ptr r.clientCb r.userdata)
    have hreg := fun hne : (bteHciDevAddCommand s.dev (some r.hci) r.call.build.ocf r.call.build.ogf r.call.build.len
      hciCommandComplete ⟨f.ptr, r.clientCb⟩ r.userdata).1 ≠ none => addCommand_registers h.table hne
    simp only [hf] at hd ⊢
    unfold bteHciDevAddPendingCommand at hpath hd ⊢
    generalize bteHciDevAddCommand s.dev (some r.hci) r.call.build.ocf r.call.build.ogf r.call.build.len
      hciCommandComplete ⟨f.ptr, r.clientCb⟩ r.userdata = added at hpath hreg hd ⊢
    obtain ⟨_ | b, dev⟩ := added
    · exact ⟨[], h.device hpath (fun _ _ _ hno => hno) hd⟩
    · obtain ⟨i, hfree, hslots⟩ := hreg (by simp)
      exact ⟨[.issue r], h.issue C mem hfits hf hpath hfree hslots hd⟩

/-- **The controller takes a command.** -/
theorem Follows.execute (h : Follows s p) (C : Controller σ χ) (x : χ) (packets : UInt8)
    (groups : List (List StoredLinkKey)) (ho : (ExchangeOp.execute x packets groups).Fair C s) :
    ∃ ops, Follows (s.execute C x packets groups) (Sys.run (Pipeline.step C.server) p ops) := by
  obtain ⟨-, hgroups⟩ := ho
  obtain ⟨sent, hqueued, hbytes⟩ := h.carried
  cases sent with
  | nil =>
    refine ⟨[], ?_⟩
    rw [Exchange.execute, hbytes]
    exact h
  | cons q sent =>
    have hfits := h.fits q.1 (by rw [hqueued]; exact List.mem_cons_self)
    have hread : HciCall.readCommand (q.1.call.build.bytes q.2) = some q.1.call.seen :=
      (HciCall.readCommand_parameters _ hfits.1 _).trans (HciCall.readParameters_build _ hfits.1 _)
    have hbytes' : s.toController = q.1.call.build.bytes q.2 :: sent.map fun q => q.1.call.build.bytes q.2 := hbytes
    have hqueued' : p.queued = q.1 :: sent.map Prod.fst := hqueued
    obtain ⟨hkeys, hne⟩ := hgroups _ (by rw [hbytes']; rfl) _ (by rw [hread]; rfl)
    have hanswers : q.1.call.Answers (C.step s.controller q.1.call.seen x).2 :=
      answers_seen (C.answers s.controller q.1.call.seen x (by rw [completeFn_seen]; exact hfits.2))
    refine ⟨[.execute x], ?_⟩
    show Follows (s.execute C x packets groups) (p.step C.server (.execute x))
    simp only [Exchange.execute, hbytes', hread, Pipeline.step, hqueued']
    obtain ⟨slots, hfst, hnd, hkept⟩ := h.slots
    obtain ⟨kept, hgathered, hway⟩ := h.way
    have hserver : s.controller = p.server := h.controller
    refine ⟨h.table, h.routing, h.distinct, ⟨slots, ?_, hnd, hkept⟩, ⟨sent, rfl, rfl⟩, ?_, ⟨kept, hgathered, ?_⟩, ?_, ?_,
      h.given, ?_, h.told⟩
    · rw [hfst, hqueued', List.map_append, List.append_assoc]
      rfl
    · intro r hr
      exact h.fits r (by rw [hqueued']; exact List.mem_cons_of_mem _ hr)
    · rw [← hserver]
      exact hway.snoc packets hkeys hne hanswers
    · intro r hr
      refine h.served r ?_
      rw [hqueued']
      rw [List.map_append, List.append_assoc] at hr
      exact hr
    · show (C.step s.controller q.1.call.seen x).1 = (C.step p.server q.1.call.seen x).1
      rw [hserver]
    · show s.choices ++ [x] = p.choices ++ [x]
      rw [h.choices]

/-! ## An event arrives -/

theorem enter_of_deliver {fresh : Nat → StoredLinkKey} {e : List UInt8} {es : List (List UInt8)}
    (hs : s.toHost = e :: es) {dev : HciDev} (hdev : s.dev.step (.event e ⟨[], false⟩) = dev) {c : Call}
    (hc : dev.calls = s.dev.calls ++ [c]) :
    s.deliver fresh = enter fresh { s with dev := dev, toHost := es } c := by
  unfold Exchange.deliver
  rw [hs]
  simp only [hdev, hc, List.drop_left]
  rfl

theorem handleEvent_returnLinkKeys {dev : HciDev} (h : dev.KeysServed) (client : ClientCb) (keys : List StoredLinkKey) :
    bteHciDevHandleEvent dev client (returnLinkKeys keys) =
      dev.call (.notify .returnLinkKeysCb (returnLinkKeys keys)) := by
  have hcode : (returnLinkKeys keys).getD 0 0 = hciReturnLinkKeys := rfl
  have hdeliver : dev.deliver client (returnLinkKeys keys) = dev := by
    unfold HciDev.deliver
    rw [hcode, if_neg (by decide), if_neg (by decide)]
  have hserved : bteHciDevHandlerForEvent dev hciReturnLinkKeys = some .returnLinkKeysCb := h
  rw [handleEvent_eq, hdeliver, hcode, hserved]
  rfl

/-- **Some of the link keys of a reply.** -/
theorem Follows.keys (h : Follows s p) (fresh : Nat → StoredLinkKey) {g : List StoredLinkKey} {es : List (List UInt8)}
    (hs : s.toHost = returnLinkKeys g :: es) (hserved : s.dev.KeysServed) {kept : List StoredLinkKey}
    (hkept : KeysGathered s.storedKeys kept) (hle : (kept ++ g).length ≤ 255)
    (hway : OnTheWay (kept ++ g) p.answered es) : Follows (s.deliver fresh) p := by
  have hdev := handleEvent_returnLinkKeys hserved (Callback.cb ⟨[], false⟩) g
  rw [enter_of_deliver hs hdev rfl]
  have hcall := h.device (F := fun _ => False)
    (.single (keep_call s.dev (.notify .returnLinkKeysCb (returnLinkKeys g)))) (fun _ _ _ hno => hno) h.distinct
  exact { hcall with way := ⟨kept ++ g, hkept.add fresh hle, hway⟩ }

theorem length_encode_le {r : HciReply} (h : r.Fits) : r.encode.length ≤ 252 := by
  cases r with
  | localName status name => simp [HciReply.encode, HciCall.length_strncpy, bteHciMaxNameLen]
  | currentIacLap status laps =>
    have hlaps := h.1
    simp only [HciReply.encode, List.length_cons, Columns.length_flatMap_width length_lapBytes]
    omega
  | vendor parameters => exact h
  | _ => simp [HciReply.encode, BdAddr.bytes, ClassOfDevice.bytes]

theorem length_keys_le {r : HciReply} (h : r.Fits) : r.keys.length ≤ 255 := by
  cases r with
  | storedLinkKey status maxKeys keys => exact h
  | _ => exact Nat.zero_le _

/-- The slot of a command matches its Command Complete. -/
theorem compare_kept {r : HciRequest} {dev : HciDev} {i : Fin 8} (h : r.Kept dev i) (packets : UInt8)
    (parameters : List UInt8) : bteDataMatcherCompare (dev.pendingCommands i).matcher
      (commandComplete packets (opcodeLe r.call.build.ocf r.call.build.ogf) parameters) = true := by
  obtain ⟨f, -, hslot⟩ := h
  rw [hslot]
  refine (commandMatcher_compare _ (.inl rfl) _ _ _).2 ⟨⟨?_, rfl⟩, ⟨?_, rfl⟩⟩
  · simp [commandComplete]
  · simp [commandComplete, length_opcodeLe]

/-- **The reply of a command is heard**: its function is called, and nothing happens to the other slots. -/
theorem step_commandComplete {dev : HciDev} (hinv : TableInv dev) (hr : RoutingInv dev) (hd : dev.Distinct)
    {r : HciRequest} {f : CompleteFn} (hf : r.call.completeFn = some f) {i : Fin 8} (hk : r.Kept dev i) (packets : UInt8)
    {reply : HciReply} (hfits : reply.Fits) {e : List UInt8}
    (he : e = commandComplete packets (opcodeLe r.call.build.ocf r.call.build.ogf) reply.encode) :
    (dev.step (.event e ⟨[], false⟩)).calls =
        dev.calls ++ [.complete f.ptr (some r.hci) e r.clientCb r.userdata] ∧
      Path ReadCode (fun j => ¬ (j ≠ i ∧ dev.Occupied j)) dev (dev.step (.event e ⟨[], false⟩)) := by
  have hcode : e.getD 0 0 = hciCommandComplete := by
    rw [he]
    rfl
  have hlen : 3 ≤ e.getD 1 0 := by
    have hle := length_encode_le hfits
    have hbyte : e.getD 1 0 = .ofNat (3 + reply.encode.length) := by
      rw [he]
      rfl
    rw [hbyte, UInt8.le_iff_toNat_le, HciCall.toNat_ofNat_of_le (by omega)]
    exact Nat.le_add_right 3 _
  have hcompare := compare_kept hk packets reply.encode
  rw [← he] at hcompare
  have hfind := find_eq hr hd (occupied_kept hk) hcompare
  obtain ⟨f', hf', hslot⟩ := hk
  obtain rfl : f = f' := Option.some.inj (hf.symm.trans hf')
  have hok : (Op.event e ⟨[], false⟩).Routable dev := by
    refine ⟨fun _ _ _ _ hno => (nomatch hno), fun j hj hstatus => ?_⟩
    obtain rfl : i = j := Option.some.inj (hfind.symm.trans hj)
    rw [hslot] at hstatus
    cases hstatus
  constructor
  · obtain ⟨d, -, hcalls, hevent⟩ := handleEvent_complete hinv hr hok hcode hlen hfind
    have hd' : dev.step (.event e ⟨[], false⟩) = d := hevent
    rw [hd', hcalls, hslot]
  · refine event_path hinv (fun j hj => ⟨hj.2, ?_, fun _ hno => (nomatch hno)⟩) hok.1 hok.2
    refine Bool.eq_false_iff.2 fun hmatch => hj.1 ?_
    exact Option.some.inj ((find_eq hr hd hj.2 hmatch).symm.trans hfind)

/-- What the function of a reply does. -/
theorem complete_spec (s : Exchange σ χ) (f : CompleteFn) (hci : Option Hci) (buffer : List UInt8) (clientCb : FnPtr)
    (userdata : Ptr) : ∃ dev, s.complete f hci buffer clientCb userdata = { s with
        dev := dev
        storedKeys := if f = .readStoredLinkKeyCb then .empty else s.storedKeys
        told := s.told ++ if clientCb = .null then [] else [⟨clientCb, hci, userdata, f.read buffer s.storedKeys⟩] } ∧
      Path ReadCode (fun _ => False) s.dev dev := by
  have hregister : ∃ dev, (if f = .periodicInquiryCompleteCb ∧ replyStatus buffer = 0 then
      (s.register .inquiryResult).register .inquiryComplete else s) = { s with dev := dev } ∧
      Path ReadCode (fun _ => False) s.dev dev := by
    split
    · exact ⟨_, rfl, (register_path s.dev .inquiryResult).trans (register_path _ .inquiryComplete)⟩
    · exact ⟨s.dev, rfl, .refl⟩
  obtain ⟨dev, heq, hpath⟩ := hregister
  refine ⟨dev, ?_, hpath⟩
  unfold Exchange.complete
  rw [heq]
  by_cases hnull : clientCb = .null <;> by_cases hread : f = .readStoredLinkKeyCb <;> simp [hnull, hread]

/-- **The reply of the first command that was answered** goes to its slot, and its client is told. -/
theorem Follows.reply (h : Follows s p) (C : Controller σ χ) (fresh : Nat → StoredLinkKey) {a : HciAnswer}
    {as : List HciAnswer} (hp : p.answered = a :: as) {packets : UInt8} {es : List (List UInt8)}
    (hs : s.toHost = commandComplete packets (opcodeLe a.request.call.build.ocf a.request.call.build.ogf)
      a.reply.encode :: es)
    (hkept : KeysGathered s.storedKeys a.reply.keys) (ha : a.request.call.Answers a.reply) (hway : OnTheWay [] as es)
    (hd : (s.deliver fresh).dev.Distinct) : Follows (s.deliver fresh) (p.step C.server .tell) := by
  obtain ⟨⟨f, hf, hfor⟩, hfits⟩ := ha
  obtain ⟨slots, hfst, hnd, hslots⟩ := h.slots
  have hfst' : slots.map Prod.fst = a.request :: (as.map HciAnswer.request ++ p.queued) := by
    rw [hfst, hp]
    rfl
  obtain ⟨q, slots', rfl, hq, hfst''⟩ := List.map_eq_cons_iff.1 hfst'
  obtain ⟨r, i⟩ := q
  obtain rfl : r = a.request := hq
  have hk : a.request.Kept s.dev i := hslots _ List.mem_cons_self
  generalize he : commandComplete packets (opcodeLe a.request.call.build.ocf a.request.call.build.ogf)
    a.reply.encode = e at hs
  obtain ⟨hcalls, hpath⟩ := step_commandComplete h.table h.routing h.distinct hf hk packets hfits he.symm
  rw [enter_of_deliver hs rfl hcalls] at hd ⊢
  generalize s.dev.step (.event e ⟨[], false⟩) = dev at hpath hd ⊢
  simp only [enter, CompleteFn.ofPtr_ptr] at hd ⊢
  obtain ⟨dev', heq, hpath'⟩ := complete_spec ({ s with dev := dev, toHost := es } : Exchange σ χ) f
    (some a.request.hci) e a.request.clientCb a.request.userdata
  rw [heq] at hd ⊢
  have hread : f.read e s.storedKeys = a.reply := by
    rw [← he]
    exact read_encode hfor hfits packets _ _ hkept
  have hwhole : Path ReadCode (fun j => ¬ (j ≠ i ∧ s.dev.Occupied j)) s.dev dev' :=
    hpath.trans (Path.mono (fun _ hno => hno.elim) hpath')
  have hsub : ∀ r ∈ as.map HciAnswer.request ++ p.queued, r ∈ p.answered.map HciAnswer.request ++ p.queued := by
    intro r hr
    rw [hp]
    exact List.mem_cons_of_mem _ hr
  simp only [Pipeline.step, hp]
  refine ⟨Path.tableInv hwhole h.table, Path.routingInv hwhole h.routing, hd, ⟨slots', hfst'', ?_, ?_⟩, h.carried,
    h.fits, ⟨[], ?_, hway⟩, ?_, h.controller, h.given, h.choices, ?_⟩
  · exact (List.nodup_cons.1 hnd).2
  · intro q hq
    have hkq := hslots q (List.mem_cons_of_mem _ hq)
    have hne : q.2 ≠ i := fun hqi => (List.nodup_cons.1 hnd).1 (List.mem_map.2 ⟨q, hq, hqi⟩)
    exact kept_of_slot hkq (Path.slot_eq hwhole h.table (occupied_kept hkq) (not_not.2 ⟨hne, occupied_kept hkq⟩))
  · by_cases hf2 : f = .readStoredLinkKeyCb
    · show KeysGathered (if f = .readStoredLinkKeyCb then .empty else s.storedKeys) []
      rw [if_pos hf2]
      exact keysGathered_empty
    · show KeysGathered (if f = .readStoredLinkKeyCb then .empty else s.storedKeys) []
      rw [if_neg hf2, ← keys_of_for hfor hf2]
      exact hkept
  · intro r hr hread
    exact Path.keysServed hwhole (h.served r (hsub r hr) hread)
  · show (s.told ++ if a.request.clientCb = .null then [] else _) = (p.told ++ [a]).filterMap HciAnswer.told
    rw [hread, List.filterMap_append, h.told]
    by_cases hnull : a.request.clientCb = .null
    · simp [HciAnswer.told, hnull]
    · simp [HciAnswer.told, hnull]

/-- **An event arrives**: the next one that is on its way. -/
theorem Follows.deliver (h : Follows s p) (C : Controller σ χ) (fresh : Nat → StoredLinkKey)
    (hd : (s.deliver fresh).dev.Distinct) :
    ∃ ops, Follows (s.deliver fresh) (Sys.run (Pipeline.step C.server) p ops) := by
  obtain ⟨kept, hkept, hway⟩ := h.way
  cases hp : p.answered with
  | nil =>
    rw [hp] at hway
    refine ⟨[], ?_⟩
    rw [Exchange.deliver, hway.2]
    exact h
  | cons a as =>
    rw [hp] at hway
    obtain ⟨groups, packets, rest, hes, hkeys, hne, ha, hrest⟩ := hway
    cases groups with
    | nil =>
      rw [List.flatten_nil, List.append_nil] at hkeys
      rw [hkeys] at hkept
      exact ⟨[.tell], h.reply C fresh hp hes hkept ha hrest hd⟩
    | cons g groups =>
      refine ⟨[], ?_⟩
      obtain ⟨⟨f, hf, hfor⟩, hfits⟩ := ha
      have hread : f = .readStoredLinkKeyCb := by
        by_contra hother
        rw [keys_of_for hfor hother] at hkeys
        exact hne g List.mem_cons_self (List.append_eq_nil_iff.1 (List.append_eq_nil_iff.1 hkeys).2).1
      have hserved : s.dev.KeysServed := by
        refine h.served a.request ?_ (hf.trans (congrArg some hread))
        rw [hp]
        exact List.mem_cons_self
      have hle : (kept ++ g).length ≤ 255 := by
        have hlen := length_keys_le hfits
        rw [← hkeys, List.flatten_cons, ← List.append_assoc, List.length_append] at hlen
        omega
      refine h.keys fresh hes hserved hkept hle ?_
      rw [hp]
      refine ⟨groups, packets, rest, rfl, ?_, fun g' hg' => hne g' (List.mem_cons_of_mem _ hg'),
        ⟨⟨f, hf, hfor⟩, hfits⟩, hrest⟩
      rw [← hkeys, List.flatten_cons, List.append_assoc]

/-- **The library is called otherwise.** -/
theorem Follows.api (h : Follows s p) {c : ApiCall} (hc : ∀ i, s.Awaits i → ¬ c.Releases (s.dev.pendingCommands i))
    (hd : (s.dev.step (.api c)).Distinct) : Follows { s with dev := s.dev.step (.api c) } p :=
  h.device (apply_path s.dev c) (fun i hi _ => hc i hi) hd

theorem length_opcodes_le {s : Exchange σ χ} {opcode : List UInt8} (h : opcode ∈ s.opcodes) : opcode.length ≤ 2 := by
  rcases List.mem_append.1 h with h | h
  · obtain ⟨b, -, rfl⟩ := List.mem_map.1 h
    exact List.length_take_le 2 b
  · obtain ⟨e, -, rfl⟩ := List.mem_map.1 h
    exact List.length_take_le 2 _

/-- **Another event**: none of the slots that wait for a reply matches it. -/
theorem Follows.event (h : Follows s p) {buffer : List UInt8} {callback : Callback}
    (hok : (Op.event buffer callback).Routable s.dev)
    (hstray : buffer.getD 0 0 = hciCommandComplete → bteHciDevFindPendingCommand s.dev buffer = none)
    (hc : ∀ i, s.Awaits i → ∀ c ∈ callback.calls, ¬ c.Releases (s.dev.pendingCommands i))
    (hd : (s.dev.step (.event buffer callback)).Distinct) :
    Follows { s with dev := s.dev.step (.event buffer callback) } p := by
  refine h.device (F := fun i => ¬ (s.Awaits i ∧ s.dev.Occupied i)) ?_ (fun i hi ho => not_not.2 ⟨hi, ho⟩) hd
  refine event_path h.table (fun i hi => ⟨hi.2, Bool.eq_false_iff.2 fun hmatch => ?_, hc i hi.1⟩) hok.1 hok.2
  obtain ⟨opcode, hopcode, hmatcher⟩ := hi.1
  have hfind := find_eq h.routing h.distinct hi.2 hmatch
  have hrules := (eventDataMatcher_spec hciCommandComplete hciCmdReplyPosOpcode opcode
    (Nat.le_trans (length_opcodes_le hopcode) (by decide))).2
  have hrule : (⟨0, [hciCommandComplete]⟩ : Rule).Matches buffer := by
    rw [compare_iff (h.routing.built i hi.2).wf, hmatcher, commandMatcher_complete, hrules] at hmatch
    exact hmatch _ List.mem_cons_self
  rw [hstray (code_of_matches hrule)] at hfind
  cases hfind

/-- **One operation of the exchange** is some steps of the pipeline. -/
theorem Follows.step (h : Follows s p) (C : Controller σ χ) {o : ExchangeOp χ} (ho : o.Fair C s) :
    ∃ ops, Follows (s.step C o) (Sys.run (Pipeline.step C.server) p ops) := by
  cases o with
  | give r mem => exact h.give C r mem ho.2.1 ho.1
  | execute x packets groups => exact h.execute C x packets groups ho
  | deliver fresh => exact h.deliver C fresh ho.1
  | api c => exact ⟨[], h.api ho.2 ho.1⟩
  | event buffer callback => exact ⟨[], h.event ho.2.1 ho.2.2.2.1 ho.2.2.2.2 ho.1⟩

/-- The exchange follows the pipeline in every run. -/
theorem follows_run (C : Controller σ χ) {dev : HciDev} (hdev : dev.Reached) (hd : dev.Distinct) (s₀ : σ)
    (ops : List (ExchangeOp χ)) (hok : Sys.Admissible (step C) (fun s o => o.Fair C s) (start dev s₀) ops) :
    ∃ pops, Follows (Sys.run (step C) (start dev s₀) ops) (Sys.run (Pipeline.step C.server) (.start s₀) pops) := by
  have hstep : ∀ (s : Exchange σ χ) (o : ExchangeOp χ),
      (∃ pops, Follows s (Sys.run (Pipeline.step C.server) (.start s₀) pops)) → o.Fair C s →
      ∃ pops, Follows (s.step C o) (Sys.run (Pipeline.step C.server) (.start s₀) pops) := by
    rintro s o ⟨pops, h⟩ ho
    obtain ⟨more, hmore⟩ := h.step C ho
    exact ⟨pops ++ more, by rw [Sys.run_append]; exact hmore⟩
  exact Sys.inv_run hstep ops _ ⟨[], follows_start hdev hd s₀⟩ hok

/-- **The clients are told what the controller would answer at once**, over every run in which the parties keep to what the
others rely on: in the order in which the commands were given, each the reply to its own, and once nothing is on its way,
all of them. -/
theorem exchange_sequential (C : Controller σ χ) {dev : HciDev} (hdev : dev.Reached) (hd : dev.Distinct) (s₀ : σ)
    (ops : List (ExchangeOp χ)) (hok : Sys.Admissible (step C) (fun s o => o.Fair C s) (start dev s₀) ops) :
    let s := Sys.run (step C) (start dev s₀) ops
    s.told <+: (C.server.answers s₀ s.given s.choices).filterMap HciAnswer.told ∧
      s.controller = C.server.after s₀ s.given s.choices ∧
      (s.toController = [] → s.toHost = [] → s.choices.length = s.given.length ∧
        s.told = (C.server.answers s₀ s.given s.choices).filterMap HciAnswer.told) := by
  obtain ⟨pops, h⟩ := follows_run C hdev hd s₀ ops hok
  have hp := Pipeline.told_sequential C.server s₀ pops
  generalize Sys.run (Pipeline.step C.server) (.start s₀) pops = p at h hp
  intro s
  have hanswers : s.told ++ p.answered.filterMap HciAnswer.told =
      (C.server.answers s₀ s.given s.choices).filterMap HciAnswer.told := by
    rw [h.told, h.given, h.choices, ← hp.answers, List.filterMap_append]
  refine ⟨⟨_, hanswers⟩, by rw [h.controller, h.given, h.choices, hp.server], fun hnone hnone' => ?_⟩
  obtain ⟨sent, hqueued, hbytes⟩ := h.carried
  obtain rfl : sent = [] := List.map_eq_nil_iff.1 (hbytes.symm.trans hnone)
  obtain ⟨kept, -, hway⟩ := h.way
  have hnil : p.answered = [] := by
    cases hp : p.answered with
    | nil => rfl
    | cons a as =>
      rw [hp, hnone'] at hway
      obtain ⟨groups, packets, rest, hes, -⟩ := hway
      exact absurd hes.symm (by simp)
  obtain ⟨done, hsplit, hlen⟩ := hp.split
  rw [hqueued, List.map_nil, List.append_nil] at hsplit
  refine ⟨by rw [h.choices, h.given, hsplit, hlen], ?_⟩
  rw [hnil] at hanswers
  exact (List.append_nil _).symm.trans hanswers

/-! ## A controller -/

/-- The replies of a controller that keeps the scan mode and nothing else. -/
def scanReply (scanEnable : UInt8) : CompleteFn → HciReply
  | .commandCompleteCb | .periodicInquiryCompleteCb | .exitPeriodicInquiryCb => .done 0
  | .linkKeyReqReplyCb => .linkKeyReq 0 ⟨0, 0, 0, 0, 0, 0⟩
  | .readLinkPolicySettingsCb => .linkPolicySettings 0 0 0
  | .readPinTypeCb => .pinType 0 0
  | .readStoredLinkKeyCb => .storedLinkKey 0 0 []
  | .writeStoredLinkKeyCb => .writtenLinkKey 0 0
  | .deleteStoredLinkKeyCb => .deletedLinkKey 0 0
  | .readLocalNameCb => .localName 0 []
  | .readPageTimeoutCb => .pageTimeout 0 0
  | .readScanEnableCb => .scanEnable 0 scanEnable
  | .readAuthEnableCb => .authEnable 0 0
  | .readClassOfDeviceCb => .classOfDevice 0 ⟨0, 0, 0⟩
  | .readAutoFlushTimeoutCb => .autoFlushTimeout 0 0 0
  | .readCurrentIacLapCb => .currentIacLap 0 []
  | .readLinkSvTimeoutCb => .linkSvTimeout 0 0 0
  | .readInquiryScanTypeCb => .inquiryScanType 0 0
  | .readInquiryModeCb => .inquiryMode 0 0
  | .readPageScanTypeCb => .pageScanType 0 0
  | .readLocalVersionCb => .localVersion 0 0 0 0 0 0
  | .readLocalFeaturesCb => .localFeatures 0 0
  | .readBufferSizeCb => .bufferSize 0 0 0 0 0
  | .readBdAddrCb => .bdAddr 0 ⟨0, 0, 0, 0, 0, 0⟩
  | .vendorCommandCb => .vendor []

theorem scanReply_for (scanEnable : UInt8) (f : CompleteFn) : (scanReply scanEnable f).For f ∧
    (scanReply scanEnable f).Fits ∧ (scanReply scanEnable f).keys = [] := by
  cases f <;> simp [scanReply, HciReply.For, HciReply.Fits, HciReply.keys]

def scanKeeper : Controller UInt8 Unit where
  step scanEnable c _ :=
    (match c with
      | .writeScanEnable scanEnable => scanEnable
      | _ => scanEnable,
      c.completeFn.elim (.done 0) (scanReply scanEnable))
  answers := by
    intro scanEnable c x h
    obtain ⟨f, hf⟩ := Option.isSome_iff_exists.1 h
    obtain ⟨hfor, hfits, -⟩ := scanReply_for scanEnable f
    show c.Answers (c.completeFn.elim (.done 0) (scanReply scanEnable))
    rw [hf]
    exact ⟨⟨f, hf, hfor⟩, hfits⟩

theorem scanKeeper_keys (scanEnable : UInt8) (c : HciCall) (x : Unit) :
    (scanKeeper.step scanEnable c x).2.keys = [] := by
  show (c.completeFn.elim (.done 0) (scanReply scanEnable)).keys = []
  cases c.completeFn with
  | none => rfl
  | some f => exact (scanReply_for scanEnable f).2.2

/-- What a fresh array holds. -/
def heapKey : StoredLinkKey := ⟨⟨0xAA, 0xAA, 0xAA, 0xAA, 0xAA, 0xAA⟩, ⟨List.replicate 16 0xAA, rfl⟩⟩

/-- One client writes the scan mode, the other reads it before the first has its reply. -/
def scanRun : List (ExchangeOp Unit) :=
  [.give ⟨0, .writeScanEnable 3, .client 1, 11⟩ fun _ => 0xAA, .give ⟨1, .readScanEnable, .client 2, 22⟩ fun _ => 0xAA,
    .execute () 1 [], .execute () 1 [], .deliver fun _ => heapKey, .deliver fun _ => heapKey]

theorem exchange_sequential_scanRun : (Sys.run (step scanKeeper) (start .init 0) scanRun).told =
    [⟨.client 1, some 0, 11, .done 0⟩, ⟨.client 2, some 1, 22, .scanEnable 0 3⟩] := by
  have hgroups : ∀ (s : Exchange UInt8 Unit), ∀ b ∈ s.toController.head?, ∀ c ∈ HciCall.readCommand b,
      ([] : List (List StoredLinkKey)).flatten = (scanKeeper.step s.controller c ()).2.keys ∧
        ∀ g ∈ ([] : List (List StoredLinkKey)), g ≠ [] :=
    fun s _ _ c _ => ⟨(scanKeeper_keys s.controller c ()).symm, fun _ hg => nomatch hg⟩
  have hok : Sys.Admissible (step scanKeeper) (fun s o => o.Fair scanKeeper s) (start .init 0) scanRun :=
    ⟨⟨by decide +kernel, trivial, fun _ _ => .inr (by decide)⟩,
      ⟨by decide +kernel, trivial, fun _ _ => .inr (by decide)⟩,
      ⟨by decide +kernel, hgroups _⟩, ⟨by decide +kernel, hgroups _⟩, ⟨by decide +kernel, trivial⟩,
      ⟨by decide +kernel, trivial⟩, trivial⟩
  have h := exchange_sequential scanKeeper ⟨[], trivial, rfl⟩ (by decide) 0 scanRun hok
  exact (h.2.2 (by decide +kernel) (by decide +kernel)).2.trans (by decide +kernel)

/-- The scan mode is read twice, the second time while an earlier slot has become free. -/
def crossedRun : List (ExchangeOp Unit) :=
  [.give ⟨0, .readPinType, .client 1, 11⟩ fun _ => 0xAA, .give ⟨1, .readScanEnable, .client 2, 22⟩ fun _ => 0xAA,
    .execute () 1 [], .deliver fun _ => heapKey, .give ⟨2, .readScanEnable, .client 3, 33⟩ fun _ => 0xAA,
    .execute () 1 [], .deliver fun _ => heapKey]

/-- Two slots then have the same matcher, and the second client is told the reply to the first one's command. -/
theorem exchange_crossed :
    ¬ (Sys.run (step scanKeeper) (start .init 0) (crossedRun.take 5)).dev.Distinct ∧
      (Sys.run (step scanKeeper) (start .init 0) crossedRun).choices.length = 2 ∧
      (Sys.run (step scanKeeper) (start .init 0) crossedRun).told =
        [⟨.client 1, some 0, 11, .pinType 0 0⟩, ⟨.client 3, some 2, 33, .scanEnable 0 0⟩] := by
  decide +kernel

end Exchange

end Bte
