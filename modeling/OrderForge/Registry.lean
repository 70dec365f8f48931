/-
This file settles whether the registry of the reactor holds exactly the handlers that
exist. It does along every run in which no read fails: a connection that is closed by
the peer is taken out before its handler is deleted. The handler of a connection
whose read fails deletes itself and stays in the registry.

While the registry is exact every pointer in it leads to a handler, so a broadcast
reaches each connection of its type once. The events of a wait are of distinct
handlers, so none of them is of a handler that was deleted since.
-/

import OrderForge.TcpReactor

namespace OrderForge

namespace TCPReactor

/-- Whether the registry holds exactly the handlers that exist, each in the set of its own type. -/
def RegistryExact (reactor : TCPReactor) : Prop :=
  ∀ index handler, handler ∈ reactor.eventHandlers index ↔
    ∃ object, reactor.heap.find? handler = some object ∧ object.getConnectionType.index = index

/-- Whether a broadcast is sent once to each handler of its type and to nothing else. -/
def BroadcastsOnce (reactor : TCPReactor) : Prop :=
  ∀ message conType, ∃ sent, reactor.broadcastAll message conType = some sent ∧ sent.Nodup ∧
    ∀ handler text, (handler, text) ∈ sent ↔ text = message ∧
      ∃ object, reactor.heap.find? handler = some object ∧ object.getConnectionType = conType

variable {reactor : TCPReactor}

/-! ### Broadcasts -/

/-- What is sent to handlers that exist. -/
theorem sendBuffers_spec (message : String) (conType : ConnectionType) {handlers : List Address}
    (distinct : handlers.Nodup)
    (exist : ∀ handler ∈ handlers, ∃ object, reactor.heap.find? handler = some object) :
    ∃ sent, reactor.sendBuffers message conType handlers = some sent ∧ sent.Nodup ∧
      ∀ handler text, (handler, text) ∈ sent ↔ text = message ∧ handler ∈ handlers ∧
        ∃ object, reactor.heap.find? handler = some object ∧
          object.getConnectionType = conType := by
  induction handlers with
  | nil => exact ⟨[], rfl, List.nodup_nil, by simp⟩
  | cons head rest inductionHypothesis =>
    obtain ⟨absent, others⟩ := List.nodup_cons.mp distinct
    obtain ⟨object, found⟩ := exist head List.mem_cons_self
    obtain ⟨sent, result, once, members⟩ := inductionHypothesis others fun handler member =>
      exist handler (List.mem_cons_of_mem _ member)
    have new : (head, message) ∉ sent := fun member =>
      absent ((members head message).mp member).2.1
    rw [sendBuffers, found, Option.bind_some, result, Option.map_some]
    by_cases wanted : object.getConnectionType = conType
    · rw [if_pos wanted]
      refine ⟨_, rfl, List.nodup_cons.mpr ⟨new, once⟩, fun handler text => ?_⟩
      rw [List.mem_cons, List.mem_cons, members]
      constructor
      · rintro (same | ⟨own, member, matching⟩)
        · cases same
          exact ⟨rfl, Or.inl rfl, object, found, wanted⟩
        · exact ⟨own, Or.inr member, matching⟩
      · rintro ⟨own, rfl | member, matching⟩
        · exact Or.inl (by rw [own])
        · exact Or.inr ⟨own, member, matching⟩
    · rw [if_neg wanted]
      refine ⟨_, rfl, once, fun handler text => ?_⟩
      rw [members, List.mem_cons]
      refine and_congr_right fun _ => ⟨fun both => ⟨Or.inr both.1, both.2⟩, ?_⟩
      rintro ⟨rfl | member, other, otherFound, matching⟩
      · rw [found] at otherFound
        cases otherFound
        exact absurd matching wanted
      · exact ⟨member, other, otherFound, matching⟩

theorem RegistryExact.mem_registered (exact_ : reactor.RegistryExact) {handler : Address} :
    handler ∈ reactor.registered ↔ ∃ object, reactor.heap.find? handler = some object := by
  rw [registered, List.mem_flatMap]
  constructor
  · rintro ⟨index, -, member⟩
    obtain ⟨object, found, -⟩ := (exact_ index handler).mp ((Finset.mem_sort _).mp member)
    exact ⟨object, found⟩
  · rintro ⟨object, found⟩
    have member := (exact_ object.getConnectionType.index handler).mpr ⟨object, found, rfl⟩
    exact ⟨_, List.mem_finRange _, (Finset.mem_sort _).mpr member⟩

/-- No handler is in two sets. -/
theorem RegistryExact.nodup_registered (exact_ : reactor.RegistryExact) :
    reactor.registered.Nodup := by
  refine List.nodup_flatMap.mpr ⟨fun index _ => Finset.sort_nodup _ _, ?_⟩
  refine (List.nodup_finRange 255).imp fun {first second} different handler inFirst inSecond => ?_
  obtain ⟨object, found, own⟩ := (exact_ first handler).mp ((Finset.mem_sort _).mp inFirst)
  obtain ⟨other, same, otherOwn⟩ := (exact_ second handler).mp ((Finset.mem_sort _).mp inSecond)
  rw [found] at same
  cases same
  exact different (own.symm.trans otherOwn)

theorem RegistryExact.broadcastsOnce (exact_ : reactor.RegistryExact) :
    reactor.BroadcastsOnce := by
  intro message conType
  obtain ⟨sent, result, once, members⟩ := sendBuffers_spec message conType
    exact_.nodup_registered fun handler member => exact_.mem_registered.mp member
  refine ⟨sent, result, once, fun handler text => (members handler text).trans ?_⟩
  refine and_congr_right fun _ => ⟨And.right, fun matching => ⟨?_, matching⟩⟩
  obtain ⟨object, found, -⟩ := matching
  exact exact_.mem_registered.mpr ⟨object, found⟩

/-! ### What holds while no read fails -/

/-- The registry is exact, epoll watches the descriptors of the handlers that exist, and the events
that are not handled yet are of distinct handlers that exist. -/
structure Sound (reactor : TCPReactor) : Prop where
  registry : reactor.RegistryExact
  watched : ∀ fd handler, reactor.epoll.find? fd = some handler ↔
    ∃ object, reactor.heap.find? handler = some object ∧ object.getFd = fd
  distinct : (reactor.events.map Prod.fst).Nodup
  pending : ∀ event ∈ reactor.events, ∃ object, reactor.heap.find? event.1 = some object

theorem create_sound : create.Sound where
  registry index handler := by
    refine iff_of_false (Finset.notMem_empty handler) ?_
    rintro ⟨object, found, -⟩
    cases found
  watched fd handler := by
    refine iff_of_false (fun found => by cases found) ?_
    rintro ⟨object, found, -⟩
    cases found
  distinct := List.nodup_nil
  pending _ none := (List.not_mem_nil none).elim

/-- What the registration of a new handler changes. -/
structure Registered (before : TCPReactor) (handler : Address) (object : EventHandler)
    (after : TCPReactor) : Prop where
  heap : ∀ other, after.heap.find? other =
    if other = handler then some object else before.heap.find? other
  epoll : ∀ fd, after.epoll.find? fd =
    if fd = object.getFd then some handler else before.epoll.find? fd
  handlers : ∀ index, after.eventHandlers index =
    if index = object.getConnectionType.index then insert handler (before.eventHandlers index)
    else before.eventHandlers index
  events : after.events = before.events

theorem registerHandler_new {handler : Address} {object : EventHandler}
    (free : reactor.heap.find? handler = none)
    (unwatched : reactor.epoll.find? object.getFd = none) :
    ∃ after, (reactor.new handler object).registerHandler handler = some after ∧
      reactor.Registered handler object after := by
  have objects : ∀ other, (reactor.new handler object).heap.find? other =
      if other = handler then some object else reactor.heap.find? other := by
    intro other
    rw [new, FlatMap.find?_emplace, free]
    rfl
  rw [registerHandler, objects, if_pos rfl, Option.map_some]
  refine ⟨_, rfl, objects, fun fd => ?_, fun index => ?_, rfl⟩
  · dsimp only [new]
    rw [unwatched]
    exact (FlatMap.find?_emplace _ _ _ _).trans (by rw [unwatched]; rfl)
  · show Function.update reactor.eventHandlers object.getConnectionType.index _ index = _
    rw [Function.update_apply]
    split_ifs with own
    · rw [own]
      rfl
    · rfl

theorem Registered.held {after : TCPReactor} {handler : Address} {object : EventHandler}
    (registered : reactor.Registered handler object after) (property : EventHandler → Prop)
    (other : Address) :
    (∃ held, after.heap.find? other = some held ∧ property held) ↔
      if other = handler then property object
      else ∃ held, reactor.heap.find? other = some held ∧ property held := by
  rw [registered.heap]
  split_ifs
  · refine ⟨?_, fun own => ⟨object, rfl, own⟩⟩
    rintro ⟨held, same, own⟩
    exact Option.some.inj same ▸ own
  · exact Iff.rfl

/-- A new handler with a new descriptor is registered. -/
theorem Sound.register (sound : reactor.Sound) {handler : Address} (object : EventHandler)
    (unused : reactor.Unused object.getFd handler) :
    ∃ after, (reactor.new handler object).registerHandler handler = some after ∧ after.Sound := by
  obtain ⟨free, closed⟩ := unused
  have unwatched : reactor.epoll.find? object.getFd = none := by
    refine Option.eq_none_iff_forall_not_mem.mpr fun other watches => ?_
    obtain ⟨held, found, same⟩ := (sound.watched _ other).mp watches
    exact closed (other, held) ((FlatMap.find?_eq_some _).mp found) same
  have absent : ∀ property : EventHandler → Prop,
      ¬ ∃ held, reactor.heap.find? handler = some held ∧ property held := by
    rintro property ⟨held, found, -⟩
    rw [free] at found
    cases found
  obtain ⟨after, result, registered⟩ := registerHandler_new free unwatched
  refine ⟨after, result, ?_, ?_, registered.events ▸ sound.distinct, ?_⟩
  · intro index other
    rw [registered.handlers, registered.held]
    split_ifs with own same same
    · rw [same]
      exact iff_of_true (Finset.mem_insert_self _ _) own.symm
    · rw [Finset.mem_insert, sound.registry, or_iff_right same]
    · rw [same, sound.registry]
      exact iff_of_false (absent _) (Ne.symm own)
    · exact sound.registry index other
  · intro fd other
    rw [registered.epoll, registered.held]
    split_ifs with own same same
    · rw [same]
      exact iff_of_true rfl own.symm
    · rw [own, ← sound.watched, unwatched]
      exact iff_of_false (fun equal => same (Option.some.inj equal).symm)
        (Option.some_ne_none other).symm
    · rw [same, sound.watched]
      exact iff_of_false (absent _) (Ne.symm own)
    · exact sound.watched fd other
  · intro event member
    obtain ⟨held, found⟩ := sound.pending event (registered.events ▸ member)
    refine ⟨held, (registered.heap event.1).trans ((if_neg ?_).trans found)⟩
    exact fun same => absent (fun _ => True) ⟨held, same ▸ found, trivial⟩

/-- What is left when a handler is unregistered and deleted. -/
structure Departed (before : TCPReactor) (handler : Address) (object : EventHandler)
    (after : TCPReactor) : Prop where
  heap : ∀ other, after.heap.find? other =
    if other = handler then none else before.heap.find? other
  epoll : ∀ fd, after.epoll.find? fd =
    if fd = object.getFd then none else before.epoll.find? fd
  handlers : ∀ index, after.eventHandlers index =
    if index = object.getConnectionType.index then (before.eventHandlers index).erase handler
    else before.eventHandlers index
  events : after.events = before.events

theorem unregisterHandler_delete {handler : Address} {object : EventHandler}
    (found : reactor.heap.find? handler = some object)
    (watched : reactor.epoll.find? object.getFd = some handler) :
    ∃ after, reactor.unregisterHandler handler = some after ∧
      reactor.Departed handler object (after.delete handler) := by
  rw [unregisterHandler, found, Option.bind_some, watched, Option.map_some]
  refine ⟨_, rfl, fun other => FlatMap.find?_erase _ _ _, fun fd => FlatMap.find?_erase _ _ _,
    fun index => ?_, rfl⟩
  show Function.update reactor.eventHandlers object.getConnectionType.index _ index = _
  rw [Function.update_apply]
  split_ifs with own
  · rw [own]
  · rfl

theorem Departed.held {after : TCPReactor} {handler : Address} {object : EventHandler}
    (departed : reactor.Departed handler object after) (property : EventHandler → Prop)
    (other : Address) :
    (∃ held, after.heap.find? other = some held ∧ property held) ↔
      other ≠ handler ∧ ∃ held, reactor.heap.find? other = some held ∧ property held := by
  rw [departed.heap]
  split_ifs with same
  · exact iff_of_false (fun found => by cases found.choose_spec.1) fun both => both.1 same
  · exact (and_iff_right same).symm

/-- A handler of no event that is left is unregistered and deleted. -/
theorem Sound.depart (sound : reactor.Sound) {handler : Address} {object : EventHandler}
    (found : reactor.heap.find? handler = some object)
    (handled : handler ∉ reactor.events.map Prod.fst) :
    ∃ after, reactor.unregisterHandler handler = some after ∧ (after.delete handler).Sound := by
  have watches := (sound.watched _ handler).mpr ⟨object, found, rfl⟩
  have only : ∀ property : EventHandler → Prop,
      (∃ held, reactor.heap.find? handler = some held ∧ property held) → property object := by
    rintro property ⟨held, same, own⟩
    rw [found] at same
    exact Option.some.inj same ▸ own
  obtain ⟨after, result, departed⟩ := unregisterHandler_delete found watches
  refine ⟨after, result, ?_, ?_, departed.events ▸ sound.distinct, ?_⟩
  · intro index other
    rw [departed.handlers, departed.held, ← sound.registry]
    split_ifs with own
    · exact Finset.mem_erase
    · refine (and_iff_right_of_imp ?_).symm
      rintro member rfl
      exact own (only _ ((sound.registry index other).mp member)).symm
  · intro fd other
    rw [departed.epoll, departed.held, ← sound.watched]
    split_ifs with own
    · rw [own, watches]
      exact iff_of_false not_false fun both => both.1 (Option.some.inj both.2).symm
    · refine (and_iff_right_of_imp ?_).symm
      rintro watched rfl
      exact own (only _ ((sound.watched fd other).mp watched)).symm
  · intro event member
    obtain ⟨held, exists_⟩ := sound.pending event (departed.events ▸ member)
    refine ⟨held, (departed.heap event.1).trans ((if_neg ?_).trans exists_)⟩
    rintro rfl
    exact handled (List.mem_map_of_mem (departed.events ▸ member))

end TCPReactor

/-! ### One step -/

/-- Whether a handler is that of an accepted connection. -/
def EventHandler.isClient : EventHandler → Bool
  | connection _ _ => false
  | client _ _ => true

/-- Whether a step handles an event of a connection that is readable, and the read fails. -/
def FailsRead (call : ReactorCall) : Prop :=
  match call.input, call.before.events with
  | .handle answers, (handler, events) :: _ => answers.received = none ∧
      events &&& EPOLLIN ≠ 0 ∧ ∃ object ∈ call.before.heap.find? handler, object.isClient = true
  | _, _ => False

instance : DecidablePred FailsRead := fun call => by
  unfold FailsRead
  split <;> infer_instance

/-- Whether a step has a result, and the registry is exact and broadcasts reach their type
afterwards. -/
structure KeepsRegistry (call : ReactorCall) : Prop where
  result : call.output.isSome
  registry : call.after.RegistryExact
  broadcasts : call.after.BroadcastsOnce

namespace TCPReactor

variable {reactor : TCPReactor} {answers : Answers} {handler : Address} {events : UInt64}

/-- An event that does not make a read fail is handled. -/
theorem Sound.handleEvent (sound : reactor.Sound) (events : UInt64) (answers : Answers)
    {object : EventHandler} (found : reactor.heap.find? handler = some object)
    (handled : handler ∉ reactor.events.map Prod.fst)
    (legal : ∀ fd ∈ answers.accepted, reactor.Unused fd answers.allocated)
    (reads : ¬ (answers.received = none ∧ events &&& EPOLLIN ≠ 0 ∧ object.isClient = true)) :
    ∃ after buffers, reactor.handleEvent handler events answers = some (after, buffers) ∧
      after.Sound := by
  rw [TCPReactor.handleEvent, found, Option.bind_some]
  cases object with
  | connection fd next =>
    show ∃ after buffers, (reactor.connectionHandleEvent next events answers).map _ = _ ∧ _
    rw [connectionHandleEvent]
    split_ifs
    · cases accepted : answers.accepted with
      | none => exact ⟨reactor, [], rfl, sound⟩
      | some clientFd =>
        obtain ⟨after, result, kept⟩ :=
          sound.register (.client clientFd next) (legal clientFd accepted)
        exact ⟨after, [], congrArg (Option.map _) result, kept⟩
    · exact ⟨reactor, [], rfl, sound⟩
  | client fd conType =>
    show ∃ after buffers, reactor.clientHandleEvent handler fd events answers.received = _ ∧ _
    unfold clientHandleEvent
    split_ifs with readable
    · cases received : answers.received with
      | none => exact absurd ⟨received, readable, rfl⟩ reads
      | some buffer =>
        cases buffer with
        | nil =>
          obtain ⟨after, result, kept⟩ := sound.depart found handled
          exact ⟨after.delete handler, [], congrArg (Option.map _) result, kept⟩
        | cons byte bytes => exact ⟨reactor, _, rfl, sound⟩
    · exact ⟨reactor, [], rfl, sound⟩

/-- A read that fails deletes its handler and leaves it in the registry. -/
theorem Sound.not_exact_of_failed (sound : reactor.Sound) {object : EventHandler}
    (found : reactor.heap.find? handler = some object) (client : object.isClient = true)
    (readable : events &&& EPOLLIN ≠ 0) (failed : answers.received = none) :
    ∃ after buffers, reactor.handleEvent handler events answers = some (after, buffers) ∧
      ¬ after.RegistryExact := by
  cases object with
  | connection fd next => cases client
  | client fd conType =>
    refine ⟨(reactor.close fd).delete handler, [], ?_, fun exact_ => ?_⟩
    · rw [TCPReactor.handleEvent, found, Option.bind_some]
      show reactor.clientHandleEvent handler fd events answers.received = _
      unfold clientHandleEvent
      rw [if_pos readable, failed]
    · have stays : handler ∈ reactor.eventHandlers conType.index :=
        (sound.registry _ handler).mpr ⟨_, found, rfl⟩
      obtain ⟨held, exists_, -⟩ := (exact_ conType.index handler).mp stays
      have gone : ((reactor.close fd).delete handler).heap.find? handler = none :=
        (FlatMap.find?_erase _ _ _).trans (if_pos rfl)
      rw [gone] at exists_
      cases exists_

/-- The events of a wait are of distinct handlers that exist. -/
theorem Sound.wait (sound : reactor.Sound) {ready : List (FileDescriptor × UInt64)}
    (distinct : (ready.map Prod.fst).Nodup) : (reactor.step (.wait ready)).1.Sound where
  registry := sound.registry
  watched := sound.watched
  distinct := by
    show ((ready.filterMap fun event => (reactor.epoll.find? event.1).map _).map Prod.fst).Nodup
    have handlers : (ready.filterMap fun event => (reactor.epoll.find? event.1).map
        fun handler => (handler, event.2)).map Prod.fst =
          (ready.map Prod.fst).filterMap reactor.epoll.find? := by
      rw [List.map_filterMap, List.filterMap_map]
      refine List.filterMap_congr fun event _ => ?_
      rw [Option.map_map]
      exact Option.map_id'
    rw [handlers]
    refine distinct.filterMap fun first second handler inFirst inSecond => ?_
    obtain ⟨object, found, own⟩ := (sound.watched first handler).mp inFirst
    obtain ⟨other, same, otherOwn⟩ := (sound.watched second handler).mp inSecond
    rw [found] at same
    cases same
    exact own.symm.trans otherOwn
  pending event member := by
    obtain ⟨asked, -, watches⟩ := List.mem_filterMap.mp member
    obtain ⟨handler, found, rfl⟩ := Option.map_eq_some_iff.mp watches
    obtain ⟨object, exists_, -⟩ := (sound.watched _ handler).mp found
    exact ⟨object, exists_⟩

/-- The next event is of a handler that exists, and of which no other event is left. -/
theorem Sound.next (sound : reactor.Sound) {rest : List (Address × UInt64)}
    (pending : reactor.events = (handler, events) :: rest) :
    { reactor with events := rest }.Sound ∧ handler ∉ rest.map Prod.fst ∧
      ∃ object, reactor.heap.find? handler = some object := by
  have distinct := sound.distinct
  rw [pending, List.map_cons, List.nodup_cons] at distinct
  refine ⟨⟨sound.registry, sound.watched, distinct.2, fun event member => ?_⟩, distinct.1, ?_⟩
  · exact sound.pending event (pending ▸ List.mem_cons_of_mem _ member)
  · exact sound.pending (handler, events) (pending ▸ List.mem_cons_self)

theorem step_handle {rest : List (Address × UInt64)} {after : TCPReactor}
    {buffers : List (List UInt8)} (pending : reactor.events = (handler, events) :: rest)
    (result : { reactor with events := rest }.handleEvent handler events answers =
      some (after, buffers)) : reactor.step (.handle answers) = (after, some buffers) := by
  rw [TCPReactor.step, pending]
  dsimp only
  rw [result]

/-- A legal step keeps what holds while no read fails, unless a read fails in it. -/
theorem Sound.step (sound : reactor.Sound) {request : ReactorRequest}
    (legal : ReactorCall.Legal (Machine.transition TCPReactor.step reactor request))
    (reads : ¬ FailsRead (Machine.transition TCPReactor.step reactor request)) :
    (reactor.step request).1.Sound ∧ (reactor.step request).2.isSome := by
  cases request with
  | listen fd next allocated =>
    obtain ⟨after, result, kept⟩ := sound.register (.connection fd next) legal
    rw [TCPReactor.step, result]
    exact ⟨kept, rfl⟩
  | wait ready => exact ⟨sound.wait legal.2.2.1, rfl⟩
  | handle answers =>
    obtain ⟨waiting, unused, -⟩ := legal
    obtain ⟨⟨handler, events⟩, rest, pending⟩ := List.exists_cons_of_ne_nil waiting
    have pending' : reactor.events = (handler, events) :: rest := pending
    obtain ⟨others, handled, object, found⟩ := sound.next pending'
    obtain ⟨after, buffers, result, kept⟩ := others.handleEvent events answers found
      handled unused fun failed => reads (by
        show FailsRead ⟨reactor, .handle answers, _, _⟩
        rw [FailsRead, pending']
        exact ⟨failed.1, failed.2.1, object, found, failed.2.2⟩)
    rw [step_handle pending' result]
    exact ⟨kept, rfl⟩

theorem Sound.keeps (sound : reactor.Sound) {request : ReactorRequest}
    (legal : ReactorCall.Legal (Machine.transition TCPReactor.step reactor request))
    (reads : ¬ FailsRead (Machine.transition TCPReactor.step reactor request)) :
    KeepsRegistry (Machine.transition TCPReactor.step reactor request) where
  result := (sound.step legal reads).2
  registry := (sound.step legal reads).1.registry
  broadcasts := (sound.step legal reads).1.registry.broadcastsOnce

theorem Sound.not_keeps (sound : reactor.Sound) {request : ReactorRequest}
    (fails : FailsRead (Machine.transition TCPReactor.step reactor request)) :
    ¬ KeepsRegistry (Machine.transition TCPReactor.step reactor request) := by
  intro keeps
  cases request with
  | listen fd next allocated => exact fails
  | wait ready => exact fails
  | handle answers =>
    change FailsRead ⟨reactor, .handle answers, _, _⟩ at fails
    cases pending : reactor.events with
    | nil =>
      rw [FailsRead, pending] at fails
      exact fails
    | cons event rest =>
      rw [FailsRead, pending] at fails
      obtain ⟨failed, readable, object, found, client⟩ := fails
      obtain ⟨others, -⟩ := sound.next pending
      obtain ⟨after, buffers, result, broken⟩ :=
        others.not_exact_of_failed found client readable failed
      have exact_ := keeps.registry
      change (reactor.step (.handle answers)).1.RegistryExact at exact_
      rw [step_handle pending result] at exact_
      exact broken exact_

/-- Along every run that the system allows, the registry is exact and a broadcast reaches each
handler of its type once after every step exactly when no read of a connection fails. -/
theorem registry_exact_iff (requests : List ReactorRequest)
    (legal : ∀ call ∈ run requests, call.Legal) :
    (∀ call ∈ run requests, KeepsRegistry call) ↔ ∀ call ∈ run requests, ¬ FailsRead call := by
  refine Machine.run_iff step (fun reactor request sound admitted => ?_) create_sound requests legal
  exact ⟨⟨fun keeps fails => sound.not_keeps fails keeps, sound.keeps admitted⟩,
    fun reads => (sound.step admitted reads).1⟩

/-- A listener accepts two connections; the first one sends something and is closed, and the third
one gets its descriptor and its address. -/
def sampleRequests : List ReactorRequest :=
  [.listen 3 .PRIVATE_FEED_ORDERS 16, .wait [(3, EPOLLIN)], .handle ⟨some 4, 32, none⟩,
    .wait [(3, EPOLLIN), (4, 4)], .handle ⟨some 5, 48, none⟩, .handle ⟨none, 0, none⟩,
    .wait [(4, EPOLLIN)], .handle ⟨none, 0, some [0x7b, 0x7d]⟩,
    .wait [(4, EPOLLIN), (3, EPOLLIN)], .handle ⟨none, 0, some []⟩, .handle ⟨some 4, 32, none⟩]

theorem sample_registry :
    (∀ call ∈ run sampleRequests, call.Legal) ∧ ∀ call ∈ run sampleRequests, KeepsRegistry call :=
  ⟨by decide, (registry_exact_iff sampleRequests (by decide)).mpr (by decide)⟩

/-- A connection whose read fails stays in the registry. -/
theorem failed_read_stays : ¬ ∀ call ∈ run
    [.listen 3 .PRIVATE_FEED_ORDERS 16, .wait [(3, EPOLLIN)], .handle ⟨some 4, 32, none⟩,
      .wait [(4, EPOLLIN)], .handle ⟨none, 0, none⟩], KeepsRegistry call := by
  intro keeps
  have last := (keeps _ (List.mem_cons_of_mem _ (List.mem_cons_of_mem _ (List.mem_cons_of_mem _
    (List.mem_cons_of_mem _ List.mem_cons_self))))).registry
  obtain ⟨object, found, -⟩ := (last 10 32).mp (by decide)
  cases found

end TCPReactor

end OrderForge
