import Mathlib.Logic.Relation
import RpcFramework.Client.Hearing
import RpcFramework.Server.RpcServer

/-!
# The exchange of messages

What the framework is for, without bytes: the calls of a client put requests
into a queue, the server takes them out one by one and puts an answer into
another queue, and the client takes the answers out.  The steps of the calls,
of the server and of the client's loop interleave in any order.

A history keeps what the server has served.  However the steps interleave, no
request is served twice, a call that is completed by a response gets the answer
to its own request, and a call is owed its answer until it is completed.
-/

namespace RpcFramework

open Client Codec Server

namespace Server.RpcServer

variable {World : Type}

/-- The response to a request, its network status, and the program behind the handler. -/
def respond (server : RpcServer World) (request : RpcRequest) (serviceName methodName : Bytes)
    (world : World) : (RpcResponse × Status) × World :=
  match server.services.lookup serviceName with
  | none =>
      (({ RpcResponse.cleared with
          success := false
          errorMsg := text "service not found: " ++ serviceName }, .failed), world)
  | some service =>
      let called := service.callMethod methodName request .cleared world
      let resp := caught called.1 called.2.1
      ((resp, statusOf resp), called.2.2)

/-- The reply to a message, if there is one. -/
def answer (server : RpcServer World) (m : Message) (world : World) : Option Message × World :=
  match m with
  | .request request reqId serviceName methodName =>
      let responded := server.respond request serviceName methodName world
      (some (.response responded.1.1 reqId responded.1.2), responded.2)
  | .response _ _ _ => (none, world)
  | .heartbeat _ reqId =>
      let now := server.time world
      (some (.heartbeat ⟨text "server", text "server_node", now.1, ∅⟩ reqId), now.2)

theorem onPacket_eq_respond (server : RpcServer World) (pb : Protobuf) {decoded : DecodedPacket}
    (kind : decoded.msgType = .request) (session : Session World) :
    let responded := server.respond decoded.rpcRequest decoded.serviceName decoded.methodName
      session.world
    server.onPacket pb decoded session =
      ⟨responded.2,
        session.sent ++ [encodeResponse pb responded.1.1 decoded.reqId responded.1.2]⟩ := by
  unfold onPacket respond
  rw [kind, if_neg (by decide), if_neg (by decide)]
  cases server.services.lookup decoded.serviceName with
  | none => rfl
  | some service => rfl

/-- The loop body of the server sends the reply to the message that the packet shows. -/
theorem onPacket_eq_answer (server : RpcServer World) (pb : Protobuf) {m : Message}
    {decoded : DecodedPacket} (shown : m.ShownBy decoded) (session : Session World) :
    server.onPacket pb decoded session =
      ⟨(server.answer m session.world).2,
        session.sent ++ (server.answer m session.world).1.toList.map (Message.encode pb)⟩ := by
  obtain ⟨kind, sameId, content⟩ := shown
  cases m with
  | request request reqId serviceName methodName =>
      obtain ⟨rfl, rfl, rfl⟩ := content
      cases sameId
      exact server.onPacket_eq_respond pb kind session
  | response resp reqId status =>
      have kind : decoded.msgType = .response := kind
      unfold onPacket
      rw [kind, if_neg (by decide), if_pos (by decide)]
      simp [answer]
  | heartbeat hb reqId =>
      have kind : decoded.msgType = .heartbeat := kind
      unfold onPacket
      rw [kind, sameId, if_pos rfl]
      rfl

end Server.RpcServer

/-- What a call asks the server for. -/
structure Asked where
  request : RpcRequest
  serviceName : Bytes
  methodName : Bytes

def Asked.message (asked : Asked) (reqId : UInt64) : Message :=
  .request asked.request reqId asked.serviceName asked.methodName

/-- The steps of the client that are its own: the packets come from the server, and a
packet that is sent goes into the queue. -/
def RpcAsyncClient.Event.Local : RpcAsyncClient.Event → Prop
  | .packet _ _ => False
  | .send _ outcome _ => outcome ≠ .sent
  | _ => True

/-- `served` is the history of the server: each message with its reply. -/
structure Exchange (World : Type) where
  client : RpcAsyncClient
  asked : CallId → Option Asked
  requests : List Message
  served : List (Message × Option Message)
  world : World
  replies : List Message

namespace Exchange

variable {World : Type}

/-- One step of the client, of the server or of the client's loop. -/
inductive Step (server : RpcServer World) : Exchange World → Exchange World → Prop
  | client {s : Exchange World} {event : RpcAsyncClient.Event} {next : RpcAsyncClient}
      (own : event.Local) (taken : s.client.step event = some next) :
      Step server s { s with client := next }
  | send {s : Exchange World} {c : CallId} {now : Int} {next : RpcAsyncClient} (asked : Asked)
      (taken : s.client.step (.send c .sent now) = some next) :
      Step server s { s with
        client := next
        asked := Function.update s.asked c (some asked)
        requests := s.requests ++ [asked.message (s.client.calls c).reqId] }
  | heartbeat {s : Exchange World} (hb : Heartbeat) (reqId : UInt64) :
      Step server s { s with requests := s.requests ++ [.heartbeat hb reqId] }
  | serve {s : Exchange World} {m : Message} {rest : List Message}
      (first : s.requests = m :: rest) :
      Step server s { s with
        requests := rest
        served := s.served ++ [(m, (server.answer m s.world).1)]
        world := (server.answer m s.world).2
        replies := s.replies ++ (server.answer m s.world).1.toList }
  | see {s : Exchange World} {m : Message} {rest : List Message} {packet : DecodedPacket}
      (first : s.replies = m :: rest) (shown : m.ShownBy packet) (now : Int) :
      Step server s { s with client := s.client.onPacket packet now, replies := rest }

/-- A client that has made no call yet, and a server that has served nothing. -/
def initial (chain : List Interceptor) (circuitBreaker : Option CircuitBreaker)
    (world : World) : Exchange World :=
  ⟨.new false chain circuitBreaker, fun _ => none, [], [], world, []⟩

/-- The server has served the messages one after another, with these replies. -/
inductive Serves (server : RpcServer World) (start : World) :
    List (Message × Option Message) → World → Prop
  | nothing : Serves server start [] start
  | next {served : List (Message × Option Message)} {world : World} (m : Message)
      (earlier : Serves server start served world) :
      Serves server start (served ++ [(m, (server.answer m world).1)]) (server.answer m world).2

/-- Every message that was put into the queue of the server, in order. -/
def sent (s : Exchange World) : List Message := s.served.map Prod.fst ++ s.requests

/-- The ids of the requests of a list of messages. -/
def requestIds (msgs : List Message) : List UInt64 :=
  msgs.filterMap fun
    | .request _ reqId _ _ => some reqId
    | _ => none

/-- The server has given the response under the id to some message. -/
def Responded (s : Exchange World) (reqId : UInt64) (status : Status) (resp : RpcResponse) :
    Prop :=
  ∃ m, (m, some (Message.response resp reqId status)) ∈ s.served

/-- The call is waiting for something that is on its way. -/
inductive Owed (s : Exchange World) (reqId : UInt64) (asked : Asked) : Prop
  | request (queued : asked.message reqId ∈ s.requests)
  | reply (resp : RpcResponse) (status : Status)
      (queued : Message.response resp reqId status ∈ s.replies)
  | handler (handler : Handler) (waits : handler ∈ s.client.handlers)
      (own : handler.reqId = reqId)

theorem Owed.imp {s t : Exchange World} {reqId : UInt64} {asked : Asked}
    (owed : s.Owed reqId asked) (requests : ∀ m ∈ s.requests, m ∈ t.requests)
    (replies : ∀ m ∈ s.replies, m ∈ t.replies)
    (handlers : ∀ handler ∈ s.client.handlers, handler ∈ t.client.handlers) : t.Owed reqId asked := by
  cases owed with
  | request queued => exact .request (requests _ queued)
  | reply resp status queued => exact .reply resp status (replies _ queued)
  | handler handler waits own => exact .handler handler (handlers _ waits) own

/-- The invariant of the exchange, with the state of the program at the start. -/
structure Inv (server : RpcServer World) (start : World) (s : Exchange World) : Prop where
  client : s.client.Inv
  numbered : s.client.Numbered
  asked : ∀ c asked, s.asked c = some asked → c < s.client.issued ∧ (s.client.calls c).Sent
  sent : ∀ req reqId serviceName methodName,
    Message.request req reqId serviceName methodName ∈ s.sent →
      ∃ c, s.asked c = some ⟨req, serviceName, methodName⟩ ∧ (s.client.calls c).reqId = reqId
  once : s.client.issued < 2 ^ 64 → (requestIds s.sent).Nodup
  history : Serves server start s.served s.world
  replied : ∀ reqId status resp, Message.response resp reqId status ∈ s.replies →
    s.Responded reqId status resp
  heard : ∀ c reqId status resp, c < s.client.issued → Cause.response reqId status resp ∈
    (s.client.calls c).completions ++ (s.client.calls c).returned → s.Responded reqId status resp
  waiting : ∀ packet, Handler.response packet ∈ s.client.handlers →
    s.Responded packet.reqId packet.networkStatus packet.rpcResponse
  owed : s.client.issued < 2 ^ 64 → ∀ c asked, s.asked c = some asked →
    (s.client.calls c).completions = [] → s.Owed (s.client.calls c).reqId asked

section Steps

variable {server : RpcServer World} {start : World} {s : Exchange World}

theorem inv_initial (chain : List Interceptor) (circuitBreaker : Option CircuitBreaker)
    (world : World) : (initial chain circuitBreaker world).Inv server world where
  client := RpcAsyncClient.inv_new false chain circuitBreaker
  numbered := ⟨rfl, fun c made => absurd made (Nat.not_lt_zero c)⟩
  asked c asked impossible := by cases impossible
  sent _ _ _ _ impossible := by cases impossible
  once _ := List.nodup_nil
  history := .nothing
  replied _ _ _ impossible := by cases impossible
  heard c _ _ _ made := absurd made (Nat.not_lt_zero c)
  waiting _ impossible := by cases impossible
  owed _ c asked impossible := by cases impossible

/-- A reply was the answer to its message in some state of the program. -/
theorem Serves.answered {served : List (Message × Option Message)} {world : World}
    (history : Serves server start served world) :
    ∀ entry ∈ served, ∃ before, (server.answer entry.1 before).1 = entry.2 := by
  induction history with
  | nothing => exact fun _ impossible => absurd impossible List.not_mem_nil
  | @next served world m _ ih =>
      intro entry member
      rcases List.mem_append.mp member with earlier | new
      · exact ih entry earlier
      · rw [List.mem_singleton.mp new]
        exact ⟨world, rfl⟩

/-- A response answers a request with its id. -/
theorem request_of_answer {m : Message} {reqId : UInt64} {status : Status} {resp : RpcResponse}
    {before : World} (answered : (server.answer m before).1 = some (.response resp reqId status)) :
    ∃ asked : Asked, m = asked.message reqId := by
  cases m with
  | request request id serviceName methodName =>
      cases answered
      exact ⟨⟨request, serviceName, methodName⟩, rfl⟩
  | response => cases answered
  | heartbeat => cases answered

/-- A step of the client alone; the packets that it handles came from the server. -/
theorem Inv.clientStep (inv : s.Inv server start) {event : RpcAsyncClient.Event}
    {next : RpcAsyncClient} (taken : s.client.step event = some next)
    (told : ∀ packet now, event = .packet packet now → packet.msgType = .response →
      s.Responded packet.reqId packet.networkStatus packet.rpcResponse) :
    Inv server start { s with client := next } := by
  have grows := RpcAsyncClient.issued_le taken
  have advances : ∀ {c}, c < s.client.issued → _ := fun made =>
    RpcAsyncClient.step_advances taken made
  have waiting : ∀ packet, Handler.response packet ∈ next.handlers →
      s.Responded packet.reqId packet.networkStatus packet.rpcResponse := by
    intro packet waits
    have handlers := (RpcAsyncClient.step_leaves taken).1
    generalize next.handlers = after at handlers waits
    cases handlers with
    | same => exact inv.waiting packet waits
    | timeout event reqId =>
        rcases List.mem_cons.mp waits with impossible | earlier
        · cases impossible
        · exact inv.waiting packet earlier
    | packet now kind =>
        rcases List.mem_cons.mp waits with new | earlier
        · cases new
          exact told packet now rfl kind
        · exact inv.waiting packet earlier
    | settled i => exact inv.waiting packet (List.mem_of_mem_eraseIdx waits)
  refine ⟨inv.client.step taken, inv.numbered.step inv.client taken, ?_, ?_, ?_, inv.history,
    inv.replied, ?_, waiting, ?_⟩
  · intro c asked sent
    obtain ⟨made, dealt⟩ := inv.asked c asked sent
    exact ⟨Nat.lt_of_lt_of_le made grows, (advances made).sent dealt⟩
  · intro req reqId serviceName methodName member
    obtain ⟨c, sent, sameId⟩ := inv.sent req reqId serviceName methodName member
    exact ⟨c, sent, (advances (inv.asked c _ sent).1).sameId.trans sameId⟩
  · intro few
    exact inv.once (Nat.lt_of_le_of_lt grows few)
  · intro c reqId status resp made member
    by_cases before : c < s.client.issued
    · rcases (advances before).given _ member with earlier | own | ⟨handler, waits, brings⟩
      · exact inv.heard c reqId status resp before earlier
      · exact absurd rfl (own reqId status resp)
      · cases handler with
        | timeout id => cases brings
        | response packet =>
            cases brings
            exact inv.waiting packet waits
    · have nothing := inv.numbered.heard_nothing taken (Nat.le_of_not_lt before) made
      change Cause.response reqId status resp ∈
        (next.calls c).completions ++ (next.calls c).returned at member
      rw [nothing] at member
      cases member
  · intro few c asked sent fresh
    have few : s.client.issued < 2 ^ 64 := Nat.lt_of_le_of_lt grows few
    obtain ⟨made, dealt⟩ := inv.asked c asked sent
    have before : (s.client.calls c).completions = [] := by
      apply List.eq_nil_iff_forall_not_mem.mpr
      intro cause member
      have kept := (advances made).kept cause member
      change (next.calls c).completions = [] at fresh
      rw [fresh] at kept
      cases kept
    change Owed _ (next.calls c).reqId asked
    rw [(advances made).sameId]
    cases inv.owed few c asked sent before with
    | request queued => exact .request queued
    | reply resp status queued => exact .reply resp status queued
    | handler handler waits own =>
        rcases inv.client.step_owed few taken made dealt waits own with still | completed
        · exact .handler handler still own
        · exact absurd fresh completed

theorem mem_requestIds {msgs : List Message} {reqId : UInt64} :
    reqId ∈ requestIds msgs ↔ ∃ asked : Asked, asked.message reqId ∈ msgs := by
  unfold requestIds
  rw [List.mem_filterMap]
  constructor
  · rintro ⟨m, member, found⟩
    cases m with
    | request req id serviceName methodName =>
        cases found
        exact ⟨⟨req, serviceName, methodName⟩, member⟩
    | response => cases found
    | heartbeat => cases found
  · rintro ⟨asked, member⟩
    exact ⟨_, member, rfl⟩

theorem Inv.sent_of_message (inv : s.Inv server start) {asked : Asked} {reqId : UInt64}
    (member : asked.message reqId ∈ s.sent) :
    ∃ c, s.asked c = some asked ∧ (s.client.calls c).reqId = reqId :=
  inv.sent _ _ _ _ member

/-- A call that has sent its packet waits for the result. -/
theorem sent_of_send {client next : RpcAsyncClient} {c : CallId} {now : Int}
    (taken : client.step (.send c .sent now) = some next) :
    c < client.issued ∧ ¬ (client.calls c).Sent ∧ (next.calls c).Sent ∧
      next.issued = client.issued := by
  cases RpcAsyncClient.steps_of_step taken with
  | send made phase =>
      refine ⟨made, CallRecord.not_sent_of_phase phase (by simp), ?_, ?_⟩
      · rw [RpcAsyncClient.send, if_pos (Or.inl rfl)]
        change (Function.update client.calls c _ c).Sent
        rw [Function.update_self]
        unfold RpcAsyncClient.afterSend
        split
        · exact Or.inr (Or.inl rfl)
        · exact Or.inl rfl
      · rw [RpcAsyncClient.send, if_pos (Or.inl rfl)]
        rfl

theorem Inv.send (inv : s.Inv server start) {c : CallId} {now : Int} {next : RpcAsyncClient}
    (asked : Asked) (taken : s.client.step (.send c .sent now) = some next) :
    Inv server start { s with
      client := next
      asked := Function.update s.asked c (some asked)
      requests := s.requests ++ [asked.message (s.client.calls c).reqId] } := by
  have moved := inv.clientStep taken nofun
  obtain ⟨made, unsent, sent, sameIssued⟩ := sent_of_send taken
  have sameId := (RpcAsyncClient.step_advances taken made).sameId
  have others : ∀ d other, s.asked d = some other →
      Function.update s.asked c (some asked) d = some other := by
    intro d other sentBefore
    rw [Function.update_of_ne]
    · exact sentBefore
    · rintro rfl
      exact unsent (inv.asked d other sentBefore).2
  have whole : ∀ m, m ∈ s.served.map Prod.fst ++
      (s.requests ++ [asked.message (s.client.calls c).reqId]) →
        m ∈ s.sent ∨ m = asked.message (s.client.calls c).reqId := by
    intro m member
    rw [← List.append_assoc] at member
    rcases List.mem_append.mp member with earlier | new
    · exact Or.inl earlier
    · exact Or.inr (List.mem_singleton.mp new)
  refine ⟨moved.client, moved.numbered, ?_, ?_, ?_, moved.history, moved.replied, moved.heard,
    moved.waiting, ?_⟩
  · intro d other sentNow
    by_cases same : d = c
    · subst same
      exact ⟨sameIssued ▸ made, sent⟩
    · exact moved.asked d other ((Function.update_of_ne same _ _).symm.trans sentNow)
  · intro req reqId serviceName methodName member
    rcases whole _ member with earlier | new
    · obtain ⟨d, sentBefore, id⟩ := moved.sent req reqId serviceName methodName earlier
      exact ⟨d, others d _ sentBefore, id⟩
    · cases new
      exact ⟨c, Function.update_self .., sameId⟩
  · intro few
    have ids : requestIds (s.served.map Prod.fst ++
        (s.requests ++ [asked.message (s.client.calls c).reqId])) =
          requestIds s.sent ++ [(s.client.calls c).reqId] := by
      rw [← List.append_assoc, requestIds, List.filterMap_append]
      rfl
    change (requestIds (s.served.map Prod.fst ++ _)).Nodup
    rw [ids, List.nodup_append]
    refine ⟨moved.once few, List.nodup_singleton _, ?_⟩
    intro reqId earlier other same
    rw [List.mem_singleton] at same
    subst same
    rintro rfl
    obtain ⟨before, member⟩ := mem_requestIds.mp earlier
    obtain ⟨d, sentBefore, id⟩ := inv.sent_of_message member
    obtain ⟨madeAlso, dealt⟩ := inv.asked d _ sentBefore
    have few : s.client.issued < 2 ^ 64 := sameIssued ▸ few
    cases inv.numbered.injective few madeAlso made id
    exact unsent dealt
  · intro few d other sentNow fresh
    change Function.update s.asked c (some asked) d = some other at sentNow
    by_cases same : d = c
    · subst same
      rw [Function.update_self] at sentNow
      cases sentNow
      refine .request ?_
      change asked.message (next.calls d).reqId ∈ _
      rw [sameId]
      exact List.mem_append_right _ (List.mem_singleton_self _)
    · rw [Function.update_of_ne same] at sentNow
      exact (moved.owed few d other sentNow fresh).imp
        (fun _ queued => List.mem_append_left _ queued) (fun _ queued => queued) fun _ waits => waits

theorem Inv.heartbeat (inv : s.Inv server start) (hb : Heartbeat) (reqId : UInt64) :
    Inv server start { s with requests := s.requests ++ [.heartbeat hb reqId] } := by
  have whole : ∀ asked id, Asked.message asked id ∈
      s.served.map Prod.fst ++ (s.requests ++ [.heartbeat hb reqId]) →
        Asked.message asked id ∈ s.sent := by
    intro asked id member
    rw [← List.append_assoc] at member
    rcases List.mem_append.mp member with earlier | impossible
    · exact earlier
    · cases List.mem_singleton.mp impossible
  refine ⟨inv.client, inv.numbered, inv.asked, ?_, ?_, inv.history, inv.replied, inv.heard,
    inv.waiting, ?_⟩
  · intro req id serviceName methodName member
    exact inv.sent req id serviceName methodName (whole ⟨req, serviceName, methodName⟩ id member)
  · intro few
    have ids : requestIds (s.served.map Prod.fst ++ (s.requests ++ [.heartbeat hb reqId])) =
        requestIds s.sent := by
      rw [← List.append_assoc, requestIds, List.filterMap_append]
      exact List.append_nil _
    change (requestIds (s.served.map Prod.fst ++ _)).Nodup
    rw [ids]
    exact inv.once few
  · intro few c asked sent fresh
    exact (inv.owed few c asked sent fresh).imp
      (fun _ queued => List.mem_append_left _ queued) (fun _ queued => queued) fun _ waits => waits

/-- The server takes the next message out of its queue. -/
theorem Inv.serve (inv : s.Inv server start) {m : Message} {rest : List Message}
    (first : s.requests = m :: rest) :
    Inv server start { s with
      requests := rest
      served := s.served ++ [(m, (server.answer m s.world).1)]
      world := (server.answer m s.world).2
      replies := s.replies ++ (server.answer m s.world).1.toList } := by
  have history := Serves.next m inv.history
  have requestsAnswered : ∀ {asked : Asked} {reqId}, asked.message reqId = m →
      ∃ resp status, (server.answer m s.world).1 = some (.response resp reqId status) := by
    rintro asked reqId rfl
    exact ⟨_, _, rfl⟩
  generalize server.answer m s.world = answered at history requestsAnswered ⊢
  obtain ⟨reply, after⟩ := answered
  have whole : (s.served ++ [(m, reply)]).map Prod.fst ++ rest = s.sent := by
    rw [List.map_append, List.append_assoc, Exchange.sent, first]
    rfl
  have responded : ∀ {reqId status resp}, s.Responded reqId status resp →
      ∃ m', (m', some (Message.response resp reqId status)) ∈ s.served ++ [(m, reply)] :=
    fun ⟨m', member⟩ => ⟨m', List.mem_append_left _ member⟩
  refine ⟨inv.client, inv.numbered, inv.asked, ?_, ?_, history, ?_, ?_, ?_, ?_⟩
  · intro req reqId serviceName methodName member
    exact inv.sent req reqId serviceName methodName (whole ▸ member)
  · intro few
    change (requestIds ((s.served ++ [(m, reply)]).map Prod.fst ++ rest)).Nodup
    rw [whole]
    exact inv.once few
  · intro reqId status resp member
    rcases List.mem_append.mp member with earlier | new
    · exact responded (inv.replied reqId status resp earlier)
    · have new : reply = some _ := Option.mem_toList.mp new
      exact ⟨m, List.mem_append_right _ (by rw [new]; exact List.mem_singleton_self _)⟩
  · intro c reqId status resp made member
    exact responded (inv.heard c reqId status resp made member)
  · intro packet waits
    exact responded (inv.waiting packet waits)
  · intro few c asked sent fresh
    cases inv.owed few c asked sent fresh with
    | request queued =>
        rw [first] at queued
        rcases List.mem_cons.mp queued with here | later
        · obtain ⟨resp, status, rfl⟩ := requestsAnswered here
          exact .reply resp status (List.mem_append_right _ (List.mem_singleton_self _))
        · exact .request later
    | reply resp status queued => exact .reply resp status (List.mem_append_left _ queued)
    | handler handler waits own => exact .handler handler waits own

/-- The loop of the client takes the next reply out of its queue. -/
theorem Inv.see (inv : s.Inv server start) {m : Message} {rest : List Message}
    {packet : DecodedPacket} (first : s.replies = m :: rest) (shown : m.ShownBy packet)
    (now : Int) :
    Inv server start { s with client := s.client.onPacket packet now, replies := rest } := by
  obtain ⟨sameKind, sameId, content⟩ := shown
  -- a packet is a response exactly if it shows one
  have shows : packet.msgType = .response →
      m = .response packet.rpcResponse packet.reqId packet.networkStatus := by
    intro kind
    rw [kind] at sameKind
    cases m with
    | request => cases sameKind
    | response resp reqId status =>
        rw [content.1, content.2, sameId]
        rfl
    | heartbeat => cases sameKind
  have moved := @Inv.clientStep World server start s inv (.packet packet now) _ rfl
    fun other later same kind => by
      cases same
      exact inv.replied _ _ _ (by rw [first, ← shows kind]; exact List.mem_cons_self ..)
  have taken : ∀ {resp reqId status}, Message.response resp reqId status ∈ s.replies →
      Message.response resp reqId status ∈ rest ∨
        ∃ handler ∈ (s.client.onPacket packet now).handlers, handler.reqId = reqId := by
    intro resp reqId status queued
    rw [first] at queued
    rcases List.mem_cons.mp queued with here | later
    · subst here
      have kind : packet.msgType = .response := sameKind
      refine Or.inr ⟨.response packet, ?_, sameId⟩
      rw [RpcAsyncClient.onPacket, if_pos kind]
      exact List.mem_cons_self ..
    · exact Or.inl later
  refine ⟨moved.client, moved.numbered, moved.asked, moved.sent, moved.once, moved.history, ?_,
    moved.heard, moved.waiting, ?_⟩
  · intro reqId status resp member
    exact inv.replied reqId status resp (by rw [first]; exact List.mem_cons_of_mem _ member)
  · intro few c asked sent fresh
    cases moved.owed few c asked sent fresh with
    | request queued => exact .request queued
    | reply resp status queued =>
        rcases taken queued with later | ⟨handler, waits, own⟩
        · exact .reply resp status later
        · exact .handler handler waits own
    | handler handler waits own => exact .handler handler waits own

theorem Inv.step {next : Exchange World} (inv : s.Inv server start) (step : Step server s next) :
    next.Inv server start := by
  cases step with
  | client own taken =>
      refine inv.clientStep taken ?_
      rintro packet now rfl
      exact absurd own id
  | send asked taken => exact inv.send asked taken
  | heartbeat hb reqId => exact inv.heartbeat hb reqId
  | serve first => exact inv.serve first
  | see first shown now => exact inv.see first shown now

/-- A response that a call has heard is the server's answer to the request of the call. -/
theorem Inv.own_answer (inv : s.Inv server start) (few : s.client.issued < 2 ^ 64) {c : CallId}
    {reqId : UInt64} {status : Status} {resp : RpcResponse}
    (heard : Cause.response reqId status resp ∈
      (s.client.calls c).completions ++ (s.client.calls c).returned) :
    ∃ asked, s.asked c = some asked ∧ (s.client.calls c).reqId = reqId ∧
      (asked.message reqId, some (Message.response resp reqId status)) ∈ s.served := by
  have made : c < s.client.issued := by
    by_contra unmade
    rw [inv.client.unmade c (Nat.le_of_not_lt unmade)] at heard
    cases heard
  obtain ⟨m, served⟩ := inv.heard c reqId status resp made heard
  obtain ⟨before, answered⟩ := inv.history.answered _ served
  obtain ⟨asked, rfl⟩ := request_of_answer answered
  have member : asked.message reqId ∈ s.sent :=
    List.mem_append_left _ (List.mem_map.mpr ⟨_, served, rfl⟩)
  obtain ⟨d, sent, sameId⟩ := inv.sent_of_message member
  have own := (inv.client.consistent c).own reqId status resp heard
  cases inv.numbered.injective few made (inv.asked d asked sent).1 (own.symm.trans sameId.symm)
  exact ⟨asked, sent, own.symm, served⟩

/-- When nothing is on its way, every call that was sent has its one result. -/
theorem Inv.completed_of_delivered (inv : s.Inv server start) (few : s.client.issued < 2 ^ 64)
    (requests : s.requests = []) (replies : s.replies = []) (handlers : s.client.handlers = [])
    {c : CallId} {asked : Asked} (sent : s.asked c = some asked) :
    ∃ cause, (s.client.calls c).completions = [cause] := by
  refine inv.client.completed_once fun completions => ?_
  cases inv.owed few c asked sent completions with
  | request queued =>
      rw [requests] at queued
      cases queued
  | reply resp status queued =>
      rw [replies] at queued
      cases queued
  | handler handler waits =>
      rw [handlers] at waits
      cases waits

end Steps

/-! ## Several messages at once -/

section Batches

open Relation

variable (server : RpcServer World)

/-- The replies to messages that are served one after another, and the program behind them. -/
def serveAll : List Message → World → List Message × World
  | [], world => ([], world)
  | m :: msgs, world =>
      let answered := server.answer m world
      let later := serveAll msgs answered.2
      (answered.1.toList ++ later.1, later.2)

theorem moves_serveAll {msgs rest : List Message} {s : Exchange World}
    (queued : s.requests = msgs ++ rest) :
    ∃ served, ReflTransGen (Step server) s { s with
      requests := rest
      served := served
      world := (serveAll server msgs s.world).2
      replies := s.replies ++ (serveAll server msgs s.world).1 } := by
  induction msgs generalizing s with
  | nil =>
      refine ⟨s.served, ?_⟩
      have same : s.requests = rest := queued
      rw [← same, serveAll, List.append_nil]
  | cons m msgs ih =>
      have first : Step server s _ := .serve queued
      obtain ⟨served, later⟩ := ih (s := { s with
        requests := msgs ++ rest
        served := s.served ++ [(m, (server.answer m s.world).1)]
        world := (server.answer m s.world).2
        replies := s.replies ++ (server.answer m s.world).1.toList }) rfl
      rw [List.append_assoc] at later
      exact ⟨served, .head first later⟩

theorem moves_seeAll {msgs rest : List Message} {packets : List DecodedPacket}
    (shown : List.Forall₂ Message.ShownBy msgs packets) (clock : RpcAsyncClient → Int)
    {s : Exchange World} (queued : s.replies = msgs ++ rest) :
    ReflTransGen (Step server) s { s with
      client := packets.foldl (fun client packet => client.onPacket packet (clock client)) s.client
      replies := rest } := by
  induction shown generalizing s with
  | nil =>
      have same : s.replies = rest := queued
      rw [← same]
      exact .refl
  | @cons m packet msgs packets here _ ih =>
      have first : Step server s _ := .see queued here (clock s.client)
      have later := ih (s := { s with
        client := s.client.onPacket packet (clock s.client), replies := msgs ++ rest }) rfl
      exact .head first later

end Batches

end Exchange

end RpcFramework
