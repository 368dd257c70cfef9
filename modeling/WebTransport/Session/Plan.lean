import WebTransport.Session.Upgrade

open rust rust.Outcome rust.Async quinn wt_proto.coding wt_proto.h3.connect wt_proto.qpack

namespace wt_rs

/-- What a side holds after the handshake. -/
def Connection.established (side : Side) : Connection :=
  let id := VarInt.from_u32 0
  let stream : StreamId := ⟨.Client, .Bi, 0⟩
  { id := some id
    settings := some { reader := ⟨side.peer, .Uni, 0⟩, writer := ⟨side, .Uni, 0⟩ }
    connect := some { inner := { writer := stream, reader := stream, headers := Connect.open_headers } }
    accept := some (.new id) }

/-- One of the functions a side runs. -/
abbrev Task := Side × Branch

namespace Task

/-- Each function has a stream of its own. -/
def stream : Task → StreamId
  | (side, .left) => ⟨side.peer, .Uni, 0⟩
  | (side, .right) => ⟨side, .Uni, 0⟩
  | (_, .rest) => ⟨.Client, .Bi, 0⟩

/-- The function of the peer on the same stream. -/
def dual : Task → Task
  | (side, .left) => (side.peer, .right)
  | (side, .right) => (side.peer, .left)
  | (side, .rest) => (side.peer, .rest)

/-- The operations a side has to wait for, when its functions have these actions left. -/
def scripts (todo : Task → List Action) (side : Side) (branch : Branch) : Script Quic :=
  calls (stream (side, branch)) (todo (side, branch))

/-- An action of a function is an operation of its side. -/
theorem scripts_update_self (todo : Task → List Action) (side : Side) (branch : Branch) (actions : List Action) :
    scripts (Function.update todo (side, branch) actions) side =
      Function.update (scripts todo side) branch (calls (stream (side, branch)) actions) := by
  funext branch'
  rw [scripts]
  by_cases heq : branch' = branch
  · rw [heq, Function.update_self, Function.update_self]
  · rw [Function.update_of_ne heq, Function.update_of_ne fun hkey => heq (Prod.mk.inj hkey).2, scripts]

/-- An action of a function is no operation of the other side. -/
theorem scripts_update_of_ne (todo : Task → List Action) {side side' : Side} (hne : side' ≠ side) (branch : Branch)
    (actions : List Action) :
    scripts (Function.update todo (side, branch) actions) side' = scripts todo side' := by
  funext branch'
  rw [scripts, Function.update_of_ne fun hkey => hne (Prod.mk.inj hkey).1, scripts]

end Task

/-- What two sides do in a handshake: the bytes they exchange, and the chunks in which they read
them. -/
structure Plan where
  stype : Side → List UInt8
  settings : Side → List UInt8
  control : Side → List (List UInt8)
  request : List UInt8
  request_chunks : List (List UInt8)
  response : List UInt8
  response_chunks : List (List UInt8)
  stype_ne_nil : ∀ side, stype side ≠ []
  message : Message Connect.open_headers request
  flatten_control : ∀ side, (control side).flatten = stype side.peer ++ settings side.peer
  flatten_request : request_chunks.flatten = request
  flatten_response : response_chunks.flatten = response

/-- The actions of each function, in their order. -/
def Plan.script (self : Plan) : Task → List Action
  | (side, .left) => .accepts :: (self.control side).map Action.reads
  | (side, .right) => [.opens, .writes (self.stype side), .writes (self.settings side)]
  | (.Client, .rest) => .opens :: .writes self.request :: self.response_chunks.map Action.reads
  | (.Server, .rest) => .accepts :: (self.request_chunks.map Action.reads ++ [.writes self.response])

/-- A side opens its control stream and sends its settings, and meanwhile accepts those of the peer. -/
theorem Settings.follows_accept {stype settings stype' settings' : List UInt8} {iter : HashMap.Iterates offered.inner}
    {side : Side}
    (hopen : (offered.open_ iter).Follows (calls ⟨side, .Uni, 0⟩ [.opens, .writes stype, .writes settings])
      ⟨side, .Uni, 0⟩)
    (hpayload : offered.Payload stype' settings') (fuel : Nat) :
    ∃ chunks : List (List UInt8), chunks.flatten = stype' ++ settings' ∧
      (accept (fuel + 1) iter).Follows
        (Branch.of (calls ⟨side.peer, .Uni, 0⟩ (.accepts :: chunks.map Action.reads))
          (calls ⟨side, .Uni, 0⟩ [.opens, .writes stype, .writes settings]) [])
        { reader := ⟨side.peer, .Uni, 0⟩, writer := ⟨side, .Uni, 0⟩ } := by
  obtain ⟨chunks, hchunks, haccept⟩ := wt_proto.h3.Settings.reads_accept hpayload fuel side.peer 0
  have hsupports : offered.supports_webtransport = true :=
    wt_proto.h3.Settings.supports_enable_webtransport 1
  refine ⟨chunks, hchunks, ?_⟩
  apply (TryJoin.follows_try_join (haccept.mapErr _) (hopen.mapErr _)).bind
  simp only [hsupports, not_true_eq_false, ↓reduceIte]
  exact .done _

namespace Connect

/-- The headers of the request in the order in which they are set. -/
def open_iter : HashMap.Iter Str Str where
  entries := [(.lit "origin", .lit "https://googlechrome.github.io"), (.lit ":protocol", .lit "webtransport"),
    (.lit ":method", .lit "CONNECT"), (.lit ":scheme", .lit "https"),
    (.lit "sec-webtransport-http3-draft02", .lit "1")]
  nodup := by decide

theorem sendable_open_headers : Sendable open_headers :=
  @sendable_of_iter open_headers open_iter rfl (by decide)

/-- The request passes the checks of the server, and the response those of the client. -/
theorem exchange (orders orders' : Orders) (fuel : Nat) :
    let stream : StreamId := ⟨.Client, .Bi, 0⟩
    let connect : Connect := { inner := { writer := stream, reader := stream, headers := open_headers } }
    ∃ (request response : List UInt8) (chunks chunks' : List (List UInt8)), Message open_headers request ∧
      chunks.flatten = request ∧ chunks'.flatten = response ∧
      (open_ (fuel + 1) orders.request).Follows
        (calls stream (.opens :: .writes request :: chunks'.map Action.reads)) connect ∧
      (accept (fuel + 1) orders'.response).Follows
        (calls stream (.accepts :: (chunks.map Action.reads ++ [.writes response]))) connect := by
  intro stream connect
  obtain ⟨response, hresponse, hok⟩ := Request.follows_ok orders'.response
  obtain ⟨request, hrequest, hopen⟩ := Request.reads_open sendable_open_headers orders.request hresponse rfl rfl
  obtain ⟨chunks', hchunks', hfollows⟩ := hopen fuel .Client 0
  obtain ⟨chunks, hchunks, haccept⟩ := Request.reads_accept hrequest rfl fuel .Client 0
  refine ⟨request, response, chunks, chunks', hrequest, hchunks, hchunks', ?_, ?_⟩
  · rw [← List.append_nil (calls stream _)]
    exact (hfollows.mapErr _).bind (.done _)
  · rw [← List.cons_append, calls_append]
    apply (haccept.mapErr _).bind
    have hprotocol : open_headers.get (.lit ":protocol") = some (.lit "webtransport") := rfl
    simp only [hprotocol, Option.all_some, ne_eq, not_true_eq_false, decide_false, Bool.false_eq_true,
      ↓reduceIte]
    exact ((hok connect.inner).mapErr _).bind (.done _)

end Connect

/-- The two sides keep to a plan, whatever the orders in which they iterate their maps. -/
theorem exists_plan (orders : Side → Orders) (fuel : Nat) :
    ∃ plan : Plan,
      (Connection.open_ (fuel + 1) (orders .Client)).Follows (Task.scripts plan.script .Client)
        (Connection.established .Client) ∧
      (Connection.upgrade (fuel + 1) (orders .Server)).Follows (Task.scripts plan.script .Server)
        (Connection.established .Server) := by
  have hsettings (side : Side) := wt_proto.h3.Settings.follows_open
    (wt_proto.h3.Settings.sendable_enable_webtransport 1) (orders side).settings
  choose stype settings hpayload hopen using hsettings
  have haccept (side : Side) := Settings.follows_accept (hopen side side 0) (hpayload side.peer) fuel
  choose control hcontrol hfollows using haccept
  obtain ⟨request, response, chunks, chunks', hrequest, hchunks, hchunks', hclient, hserver⟩ :=
    Connect.exchange (orders .Client) (orders .Server) fuel
  let plan : Plan :=
    { stype, settings, control, request, request_chunks := chunks, response, response_chunks := chunks'
      stype_ne_nil := fun side => (hpayload side).stype.ne_nil
      message := hrequest
      flatten_control := hcontrol
      flatten_request := hchunks
      flatten_response := hchunks' }
  have hscripts (side : Side) : Task.scripts plan.script side =
      Branch.of (calls ⟨side.peer, .Uni, 0⟩ (.accepts :: (control side).map Action.reads))
        (calls ⟨side, .Uni, 0⟩ [.opens, .writes (stype side), .writes (settings side)])
        ([] ++ (calls ⟨.Client, .Bi, 0⟩ (plan.script (side, .rest)) ++ [])) := by
    funext branch
    rw [List.append_nil]
    cases branch <;> rfl
  refine ⟨plan, ?_, ?_⟩
  · rw [hscripts]
    exact (hfollows .Client).bind (hclient.bind (.done _))
  · rw [hscripts]
    exact (hfollows .Server).bind (hserver.bind (.done _))

end wt_rs
