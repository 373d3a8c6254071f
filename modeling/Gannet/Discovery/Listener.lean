import Gannet.Discovery.Producers
import Gannet.Identity.StoreSteps

/-!
# The passive listener as a system (passive.rs)

Producers run on their own threads and send to two unbounded queues, one of
sightings and one of services; the listen loop takes from either queue,
whichever the `select` picks. A step of the system is one read of a producer,
one send, or one message taken by the loop; a run is any interleaving of them.

The steps are computed by `Listener.next`; `Listener.Step` also lets the store's
hash map change its iteration order. `Event` is what an observer sees of a step,
with the key of the record a sighting went into.

Stopping (Ctrl-C) ends a run between two steps. Saving the store and printing
are left out: they read the state and do not change it.
-/

namespace Gannet.Passive

open KeyMap Machine

/-! ## State -/

/-- `Capability`: what `detect_capability` lets the listener do. -/
inductive Capability where
  | rawSocket
  | arpTable
  | mdnsOnly
deriving DecidableEq, Repr

/-- The producer threads. -/
inductive Source where
  | sniffRaw
  | pollArpTable
  | listenMdns
deriving DecidableEq, Repr

/-- The threads `listen` spawns. -/
def Capability.spawns : Capability → Source → Bool
  | .rawSocket, .sniffRaw => true
  | .arpTable, .pollArpTable => true
  | .arpTable, .listenMdns => true
  | .mdnsOnly, .listenMdns => true
  | _, _ => false

/-- What does not change during a run. -/
structure Config where
  capability : Capability
  profile : Profile
  localSubnet : LocalSubnet
  ouiTable : UInt32 → Option String

/-- A producer thread. It reads on only when it has sent everything in its
`outbox`; a panic ends it. -/
structure Producer where
  seen : Seen
  outbox : List Message
  alive : Bool

/-- The state of `listen`: its producer threads, the two channels, the addresses seen, and the
registry. -/
structure Listener where
  producer : Source → Producer
  rx : List ArpEntry
  serviceRx : List MdnsServiceEvent
  seenLocal : Map Ipv4Addr MacAddr6
  store : Store

/-- The listener after it loaded its store. -/
def Listener.init (store : Store) : Listener where
  producer := fun _ => ⟨[], [], true⟩
  rx := []
  serviceRx := []
  seenLocal := ∅
  store := store

/-! ## Producers -/

/-- What a producer can read. -/
inductive Input where
  | frame (bytes : List UInt8)
  | arpTable (contents : Option String)
  | mdnsPacket (src : Ipv4Addr) (payload : List UInt8)
deriving DecidableEq, Repr

/-- The thread that reads it. -/
def Input.source : Input → Source
  | .frame _ => .sniffRaw
  | .arpTable _ => .pollArpTable
  | .mdnsPacket _ _ => .listenMdns

/-- The producer's `seen` after the input, and what it sends. -/
def produce (cfg : Config) (seen : Seen) : Input → Except Bytes.Panic (Seen × List Message)
  | .frame bytes => do
    let (seen, entries) ← sniffFrame cfg.profile cfg.localSubnet seen bytes
    return (seen, entries.map .entry)
  | .arpTable contents =>
    let (seen, entries) := Passive.pollArpTable seen contents
    .ok (seen, entries.map .entry)
  | .mdnsPacket src payload => do
    return (seen, ← Passive.listenMdns src payload)

/-- The producer after it read the input. -/
def Producer.read (cfg : Config) (p : Producer) (input : Input) : Producer :=
  match produce cfg p.seen input with
  | .ok (seen, outbox) => ⟨seen, outbox, true⟩
  | .error _ => { p with alive := false }

/-! ## The listen loop -/

/-- A sighting taken from `rx`: the new `seen_local` and the device to upsert,
or nothing where the loop `continue`s. -/
def takeEntry (cfg : Config) (seenLocal : Map Ipv4Addr MacAddr6) (entry : ArpEntry) :
    Option (Map Ipv4Addr MacAddr6 × Device) :=
  -- a MAC without an address; the search for one only decides what is printed
  if entry.ip.isUnspecified && !entry.mac.isBroadcast then none
  else if entry.ip ∈ seenLocal then none
  else
    some (seenLocal.insert entry.ip entry.mac,
      { Device.ofArpEntry entry with vendor := ouiLookup cfg.ouiTable entry.mac })

/-- A service event: the device to upsert, if the address was seen. -/
def takeService (cfg : Config) (seenLocal : Map Ipv4Addr MacAddr6) (event : MdnsServiceEvent) :
    Option Device :=
  (seenLocal.lookup event.ip).map fun mac =>
    { ip := event.ip
      mac := some mac
      vendor := ouiLookup cfg.ouiTable mac
      hostname := none
      osHint := none
      services := event.services
      via := .arp
      category := none
      tag := none }

/-! ## Steps -/

/-- What can happen next. -/
inductive Action where
  | read (input : Input)
  | send (source : Source)
  | receive (now : Nat)
  | receiveService (now : Nat)
deriving DecidableEq, Repr

/-- What happened. -/
inductive Event where
  | read (input : Input)
  | sent (message : Message)
  | skipped (entry : ArpEntry)
  | dropped (event : MdnsServiceEvent)
  | sighted (device : Device) (now : Nat) (key : String)
deriving DecidableEq, Repr

namespace Listener

/-- One producer replaced. -/
def setProducer (s : Listener) (source : Source) (p : Producer) : Listener :=
  { s with producer := Function.update s.producer source p }

/-- A message put into its queue. -/
def deliver (s : Listener) : Message → Listener
  | .entry entry => { s with rx := s.rx ++ [entry] }
  | .service event => { s with serviceRx := s.serviceRx ++ [event] }

/-- The device upserted. -/
def sight (s : Listener) (device : Device) (now : Nat) : Event × Listener :=
  let (store, record) := s.store.upsert device Namer.generate now
  (.sighted device now record.key, { s with store := store })

/-- One step, if the action is possible. -/
def next (cfg : Config) (s : Listener) : Action → Option (Event × Listener)
  | .read input =>
    let p := s.producer input.source
    if cfg.capability.spawns input.source && p.alive && p.outbox.isEmpty then
      match produce cfg p.seen input with
      -- the messages wait in the outbox: sends are steps of their own
      | .ok (seen, outbox) => some (.read input, s.setProducer input.source ⟨seen, outbox, true⟩)
      -- a panic ends the thread, and only that thread
      | .error _ => some (.read input, s.setProducer input.source { p with alive := false })
    else none
  | .send source =>
    let p := s.producer source
    match p.outbox with
    | [] => none
    | message :: outbox =>
      some (.sent message, (s.setProducer source { p with outbox := outbox }).deliver message)
  | .receive now =>
    match s.rx with
    | [] => none
    | entry :: rx =>
      match takeEntry cfg s.seenLocal entry with
      | none => some (.skipped entry, { s with rx := rx })
      | some (seenLocal, device) =>
        some (sight { s with rx := rx, seenLocal := seenLocal } device now)
  | .receiveService now =>
    match s.serviceRx with
    | [] => none
    | event :: serviceRx =>
      match takeService cfg s.seenLocal event with
      | none => some (.dropped event, { s with serviceRx := serviceRx })
      | some device => some (sight { s with serviceRx := serviceRx } device now)

/-- A step, with the store's map in any iteration order. -/
def Step (cfg : Config) (s : Listener) (e : Event) (t : Listener) : Prop :=
  ∃ (store : Store) (a : Action), SameEntries s.store.records store.records ∧
    next cfg { s with store := store } a = some (e, t)

/-- An action that is possible is a step. -/
theorem step_next {cfg : Config} {s t : Listener} {a : Action} {e : Event}
    (h : next cfg s a = some (e, t)) : Step cfg s e t :=
  ⟨s.store, a, SameEntries.refl _, h⟩

/-! ## What a step does -/

variable {cfg : Config} {s t : Listener} {e : Event}

/-- What a step does: which message moves where, and what the loop upserts. The
store of the next state may iterate in another order. -/
inductive Outcome (cfg : Config) (s : Listener) : Event → Listener → Prop where
  | read {input : Input} {store : Store} (hstore : store.contents = s.store.contents)
      (hready : (cfg.capability.spawns input.source && (s.producer input.source).alive &&
        (s.producer input.source).outbox.isEmpty) = true) :
      Outcome cfg s (.read input) ({ s with store := store }.setProducer input.source
        ((s.producer input.source).read cfg input))
  | sent {source : Source} {message : Message} {outbox : List Message} {store : Store}
      (hstore : store.contents = s.store.contents)
      (houtbox : (s.producer source).outbox = message :: outbox) :
      Outcome cfg s (.sent message)
        (({ s with store := store }.setProducer source
          { s.producer source with outbox := outbox }).deliver message)
  | skipped {entry : ArpEntry} {rx : List ArpEntry} {store : Store}
      (hstore : store.contents = s.store.contents) (hrx : s.rx = entry :: rx)
      (htake : takeEntry cfg s.seenLocal entry = none) :
      Outcome cfg s (.skipped entry) { s with rx := rx, store := store }
  | dropped {event : MdnsServiceEvent} {serviceRx : List MdnsServiceEvent} {store : Store}
      (hstore : store.contents = s.store.contents) (hserviceRx : s.serviceRx = event :: serviceRx)
      (htake : takeService cfg s.seenLocal event = none) :
      Outcome cfg s (.dropped event) { s with serviceRx := serviceRx, store := store }
  | entry {entry : ArpEntry} {rx : List ArpEntry} {seenLocal : Map Ipv4Addr MacAddr6}
      {device : Device} {now : Nat} {store : Store} {record : Record} (hrx : s.rx = entry :: rx)
      (htake : takeEntry cfg s.seenLocal entry = some (seenLocal, device))
      (hsighting : Sighting s.store.contents device Namer.generate now store.contents record) :
      Outcome cfg s (.sighted device now record.key)
        { s with rx := rx, seenLocal := seenLocal, store := store }
  | service {event : MdnsServiceEvent} {serviceRx : List MdnsServiceEvent} {device : Device}
      {now : Nat} {store : Store} {record : Record}
      (hserviceRx : s.serviceRx = event :: serviceRx)
      (htake : takeService cfg s.seenLocal event = some device)
      (hsighting : Sighting s.store.contents device Namer.generate now store.contents record) :
      Outcome cfg s (.sighted device now record.key)
        { s with serviceRx := serviceRx, store := store }

/-- The outcome of an action that starts from the store in some iteration order. -/
theorem next_outcome {store : Store} (hc : store.contents = s.store.contents)
    (hw : WellFormed s.store.contents) {a : Action}
    (h : next cfg { s with store := store } a = some (e, t)) : Outcome cfg s e t := by
  have hupsert : ∀ (d : Device) (now : Nat), Sighting s.store.contents d Namer.generate now
      (store.upsert d Namer.generate now).1.contents (store.upsert d Namer.generate now).2 := by
    intro d now
    rw [← hc] at hw ⊢
    exact Store.upsert_sighting hw d Namer.generate now
  cases a with
  | read input =>
    simp only [next] at h
    split at h
    · rename_i hready
      have houtcome : Outcome cfg s _ _ := .read hc hready
      rw [Producer.read] at houtcome
      split at h
      · rename_i hproduce
        obtain ⟨rfl, rfl⟩ := Prod.mk.inj (Option.some.inj h)
        rwa [hproduce] at houtcome
      · rename_i hpanic
        obtain ⟨rfl, rfl⟩ := Prod.mk.inj (Option.some.inj h)
        rwa [hpanic] at houtcome
    · exact nomatch h
  | send source =>
    simp only [next] at h
    split at h
    · exact nomatch h
    · rename_i houtbox
      obtain ⟨rfl, rfl⟩ := Prod.mk.inj (Option.some.inj h)
      exact .sent hc houtbox
  | receive now =>
    simp only [next] at h
    split at h
    · exact nomatch h
    · rename_i hrx
      split at h
      · rename_i htake
        obtain ⟨rfl, rfl⟩ := Prod.mk.inj (Option.some.inj h)
        exact .skipped hc hrx htake
      · rename_i htake
        obtain ⟨rfl, rfl⟩ := Prod.mk.inj (Option.some.inj h)
        exact .entry hrx htake (hupsert _ now)
  | receiveService now =>
    simp only [next] at h
    split at h
    · exact nomatch h
    · rename_i hserviceRx
      split at h
      · rename_i htake
        obtain ⟨rfl, rfl⟩ := Prod.mk.inj (Option.some.inj h)
        exact .dropped hc hserviceRx htake
      · rename_i htake
        obtain ⟨rfl, rfl⟩ := Prod.mk.inj (Option.some.inj h)
        exact .service hserviceRx htake (hupsert _ now)

/-- Whatever the iteration order, a step has one of these outcomes. -/
theorem Step.outcome (hw : WellFormed s.store.contents) (h : Step cfg s e t) :
    Outcome cfg s e t := by
  obtain ⟨store, a, hsame, hnext⟩ := h
  exact next_outcome (Store.contents_congr hsame).symm hw hnext

/-- The effect of a step on the queue of sightings, `seen_local` and the store.
Only the two kinds of sighting touch the store. -/
inductive Effect (s : Listener) : Event → Listener → Prop where
  | read {input : Input} {t : Listener} (hstore : t.store.contents = s.store.contents)
      (hrx : t.rx = s.rx) (hseen : t.seenLocal = s.seenLocal) : Effect s (.read input) t
  | sent {message : Message} {t : Listener} (hstore : t.store.contents = s.store.contents)
      (hrx : ∀ entry ∈ t.rx, entry ∈ s.rx ∨ message = .entry entry)
      (hseen : t.seenLocal = s.seenLocal) : Effect s (.sent message) t
  | skipped {entry : ArpEntry} {t : Listener} (hstore : t.store.contents = s.store.contents)
      (hrx : s.rx = entry :: t.rx) (hseen : t.seenLocal = s.seenLocal) :
      Effect s (.skipped entry) t
  | dropped {event : MdnsServiceEvent} {t : Listener}
      (hstore : t.store.contents = s.store.contents) (hrx : t.rx = s.rx)
      (hseen : t.seenLocal = s.seenLocal) : Effect s (.dropped event) t
  | entry {entry : ArpEntry} {device : Device} {now : Nat} {record : Record} {t : Listener}
      (hrx : s.rx = entry :: t.rx) (hip : device.ip = entry.ip)
      (hmac : device.mac = some entry.mac)
      (hseen : t.seenLocal = s.seenLocal.insert entry.ip entry.mac)
      (hsighting : Sighting s.store.contents device Namer.generate now t.store.contents record) :
      Effect s (.sighted device now record.key) t
  | service {device : Device} {mac : MacAddr6} {now : Nat} {record : Record} {t : Listener}
      (hrx : t.rx = s.rx) (hmac : device.mac = some mac)
      (hlocal : s.seenLocal.lookup device.ip = some mac) (hseen : t.seenLocal = s.seenLocal)
      (hsighting : Sighting s.store.contents device Namer.generate now t.store.contents record) :
      Effect s (.sighted device now record.key) t

/-- What is in the channel was there, or was sent. -/
theorem mem_deliver_rx (s : Listener) {message : Message} {entry : ArpEntry}
    (h : entry ∈ (s.deliver message).rx) : entry ∈ s.rx ∨ message = .entry entry := by
  cases message with
  | entry sent =>
    rcases List.mem_append.mp h with h | h
    · exact .inl h
    · exact .inr (congrArg Message.entry (List.mem_singleton.mp h).symm)
  | service _ => exact .inl h

/-- Sending leaves registry and addresses. -/
theorem deliver_store (s : Listener) (message : Message) :
    (s.deliver message).store = s.store ∧ (s.deliver message).seenLocal = s.seenLocal := by
  cases message <;> exact ⟨rfl, rfl⟩

/-- An entry is entered under its address, and upserted with its MAC. -/
theorem takeEntry_spec {seenLocal seenLocal' : Map Ipv4Addr MacAddr6} {entry : ArpEntry}
    {device : Device} (h : takeEntry cfg seenLocal entry = some (seenLocal', device)) :
    seenLocal' = seenLocal.insert entry.ip entry.mac ∧ device.ip = entry.ip ∧
      device.mac = some entry.mac := by
  unfold takeEntry at h
  by_cases hunknown : (entry.ip.isUnspecified && !entry.mac.isBroadcast) = true
  · rw [if_pos hunknown] at h
    exact nomatch h
  rw [if_neg hunknown] at h
  by_cases hseen : entry.ip ∈ seenLocal
  · rw [if_pos hseen] at h
    exact nomatch h
  rw [if_neg hseen] at h
  obtain ⟨rfl, rfl⟩ := Prod.mk.inj (Option.some.inj h)
  exact ⟨rfl, rfl, rfl⟩

/-- A service event is upserted with the MAC entered for its address. -/
theorem takeService_spec {seenLocal : Map Ipv4Addr MacAddr6} {event : MdnsServiceEvent}
    {device : Device} (h : takeService cfg seenLocal event = some device) :
    ∃ mac, seenLocal.lookup device.ip = some mac ∧ device.mac = some mac := by
  obtain ⟨mac, hmac, rfl⟩ := Option.map_eq_some_iff.mp h
  exact ⟨mac, hmac, rfl⟩

/-- Every outcome has one of the effects. -/
theorem Outcome.effect (h : Outcome cfg s e t) : Effect s e t := by
  cases h with
  | read hstore _ => exact .read hstore rfl rfl
  | @sent source message outbox store hstore _ =>
    let s' := { s with store := store }.setProducer source
      { s.producer source with outbox := outbox }
    obtain ⟨hstore', hseen⟩ := deliver_store s' message
    exact .sent ((congrArg Store.contents hstore').trans hstore)
      (fun _ hentry => mem_deliver_rx s' hentry) hseen
  | skipped hstore hrx _ => exact .skipped hstore hrx rfl
  | dropped hstore _ _ => exact .dropped hstore rfl rfl
  | entry hrx htake hsighting =>
    obtain ⟨rfl, hip, hmac⟩ := takeEntry_spec htake
    exact .entry hrx hip hmac rfl hsighting
  | service _ htake hsighting =>
    obtain ⟨mac, hlocal, hmac⟩ := takeService_spec htake
    exact .service rfl hmac hlocal rfl hsighting

/-- And so has every step. -/
theorem Step.effect (hw : WellFormed s.store.contents) (h : Step cfg s e t) : Effect s e t :=
  (h.outcome hw).effect

/-! ## Runs of given actions -/

/-- The events and the last state of the actions, if all are possible and every
step meets the condition. -/
def runActions (cfg : Config) (cond : Listener → Event → Prop) [∀ s e, Decidable (cond s e)]
    (s : Listener) : List Action → Option (List Event × Listener)
  | [] => some ([], s)
  | a :: as => do
    let (e, t) ← next cfg s a
    if cond s e then
      let (events, u) ← runActions cfg cond t as
      return (e :: events, u)
    else none

/-- Actions that can be executed, each under the condition, are a guarded run. -/
theorem run_actions {cond : Listener → Event → Prop} [∀ s e, Decidable (cond s e)]
    {as : List Action} {events : List Event} (h : runActions cfg cond s as = some (events, t)) :
    Lts.Run (Lts.Guarded (Step cfg) cond) s events t := by
  induction as generalizing s events with
  | nil =>
    obtain ⟨rfl, rfl⟩ := Prod.mk.inj (Option.some.inj h)
    exact .nil
  | cons a as ih =>
    obtain ⟨⟨e, u⟩, hnext, hrest⟩ := Option.bind_eq_some_iff.mp h
    by_cases hcond : cond s e
    · simp only [if_pos hcond] at hrest
      obtain ⟨⟨events', t'⟩, hrun, hsome⟩ := Option.bind_eq_some_iff.mp hrest
      obtain ⟨rfl, rfl⟩ := Prod.mk.inj (Option.some.inj hsome)
      exact (Lts.Run.single ⟨hcond, step_next hnext⟩).append (ih hrun)
    · simp only [if_neg hcond] at hrest
      exact nomatch hrest

end Listener

end Gannet.Passive
