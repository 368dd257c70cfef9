import WebTransport.H3.Asked
import WebTransport.Session.Progress

open rust rust.Outcome rust.Async quinn wt_proto.coding wt_proto.h3.connect wt_proto.qpack transition

namespace wt_rs

variable {side : Side} {fuel : Nat} {orders : Orders} {script : Script Quic}

/-- What a side runs for a new connection. -/
def Connection.setup (side : Side) (fuel : Nat) (orders : Orders) :
    TryJoin Quic WTError (wt_proto.h3.Settings × StreamId) StreamId Connection :=
  match side with
  | .Client => Connection.open_ fuel orders
  | .Server => Connection.upgrade fuel orders

/-- A run of `setup`, with any answers. -/
abbrev Connection.Setup := TryJoin.Trace Quic WTError (wt_proto.h3.Settings × StreamId) StreamId Connection

/-- The request a side makes or accepts after the settings. -/
def Connect.setup (side : Side) (fuel : Nat) (orders : Orders) : Async Quic WTError Connect :=
  match side with
  | .Client => Connect.open_ fuel orders.request
  | .Server => Connect.accept fuel orders.response

namespace Settings

/-- What is done with the settings of the peer. -/
def check (values : (wt_proto.h3.Settings × StreamId) × StreamId) : Async Quic WTError Settings :=
  if ¬ values.1.1.supports_webtransport then lift (err .WebTransportNotSupported)
  else pure { reader := values.1.2, writer := values.2 }

end Settings

/-- What is done with the request. -/
def Connection.establish (settings : Settings) (connect : Connect) : Async Quic WTError Connection := do
  let id ← lift connect.session_id
  let accept := WTAccept.new id
  pure { id := some id, settings := some settings, connect := some connect, accept := some accept }

private theorem Connection.setup_eq (side : Side) (fuel : Nat) (orders : Orders) :
    setup side fuel orders =
      .settle ((wt_proto.h3.Settings.accept fuel).mapErr .H3Error)
        ((Settings.offered.open_ orders.settings).mapErr .H3Error)
        fun values => Settings.check values >>= fun settings =>
          Connect.setup side fuel orders >>= Connection.establish settings := by
  cases side with
  | Client =>
    rw [setup, open_, Settings.accept, TryJoin.try_join, TryJoin.settle_bind, TryJoin.settle_bind]
    rfl
  | Server =>
    rw [setup, upgrade, Settings.accept, TryJoin.try_join, TryJoin.settle_bind, TryJoin.settle_bind]
    rfl

/-- The peer has sent settings with which it supports WebTransport, and this side its own. -/
structure Settings.Exchanged (settings : Settings) (scripts : Branch → Script Quic) : Prop where
  read : ∃ fdata list, wt_proto.h3.ControlRead (scripts .left) settings.reader fdata ∧
    wt_proto.h3.Settings.Pairs fdata list ∧
    (wt_proto.h3.Settings.default.insert_pairs list).supports_webtransport = true
  sent : Settings.offered.Sent (scripts .right) settings.writer

/-- A request for a session has been accepted, but not answered. -/
structure Connect.Requested (connect : Connect) (script : Script Quic) : Prop where
  accepted : connect.inner.Accepted script
  protocol : connect.inner.headers.get (.lit ":protocol") = some (.lit "webtransport")

/-- Request and response have been exchanged. -/
def Connect.Established (connect : Connect) (side : Side) (script : Script Quic) : Prop :=
  match side with
  | .Client => connect.inner.Answered script ∧ connect.inner.headers = Connect.open_headers
  | .Server => ∃ request frame, connect.Requested request ∧ Message Request.ok_headers frame ∧
      script = request ++ [⟨.write_all connect.inner.writer frame, .ok ()⟩]

private theorem Settings.of_check {values : (wt_proto.h3.Settings × StreamId) × StreamId} {settings : Settings}
    (h : (Settings.check values).Follows script settings) :
    script = [] ∧ values.1.1.supports_webtransport = true ∧ settings.reader = values.1.2 ∧
      settings.writer = values.2 := by
  rw [check] at h
  split_ifs at h with hsupports
  · obtain ⟨rfl, hresult⟩ := h.of_done
    cases hresult
    exact ⟨rfl, hsupports, rfl, rfl⟩
  · cases h.of_done.2

private theorem Settings.always_check (values : (wt_proto.h3.Settings × StreamId) × StreamId) :
    Always (fun _ => False) False (Settings.check values) := by
  rw [check]
  split_ifs
  · exact .done_ok _
  · exact .done_err _

/-- A function that waits for nothing. -/
private theorem eq_nil_of_always {α : Type} {Panics : Prop} {m m' : Async Quic WTError α}
    (h : Always (fun _ => False) Panics m) (hran : Ran script m m') : script = [] :=
  List.eq_nil_iff_forall_not_mem.mpr (h.of_ran hran).1

/-- The settings that the functions before the rest have come back with. -/
private theorem Settings.exchanged {scripts : Branch → Script Quic}
    {values : (wt_proto.h3.Settings × StreamId) × StreamId} {settings : Settings}
    (hexact : ∀ branch, Exact (scripts branch))
    (hleft : ((wt_proto.h3.Settings.accept fuel).mapErr WTError.H3Error).Follows (scripts .left) values.1)
    (hright : ((Settings.offered.open_ orders.settings).mapErr WTError.H3Error).Follows (scripts .right) values.2)
    (hcheck : (Settings.check values).Follows script settings) : settings.Exchanged scripts := by
  obtain ⟨-, hsupports, hreader, hwriter⟩ := of_check hcheck
  obtain ⟨fdata, list, hread, hpairs, hlist⟩ := wt_proto.h3.Settings.took_accept hleft.of_mapErr (hexact .left)
  have hsent := wt_proto.h3.Settings.of_open (wt_proto.h3.Settings.sendable_enable_webtransport 1) hright.of_mapErr
  rw [hlist] at hsupports
  refine ⟨⟨fdata, list, ?_, hpairs, hsupports⟩, ?_⟩
  · rw [hreader]
    exact hread
  · rw [hwriter]
    exact hsent

namespace Connect

variable {connect : Connect} {id : VarInt}

private theorem of_setup (h : (setup side fuel orders).Follows script connect) (hexact : Exact script) :
    connect.Established side script := by
  cases side with
  | Client =>
    obtain ⟨asked, last, request, rfl, hasked, hlast⟩ := Follows.of_bind h
    obtain ⟨rfl, hresult⟩ := hlast.of_done
    cases hresult
    rw [List.append_nil]
    exact Request.took_open sendable_open_headers hasked.of_mapErr hexact.of_append.1
  | Server =>
    obtain ⟨accepted, tail, request, rfl, haccept, htail⟩ := Follows.of_bind h
    have haccepted := Request.took_accept haccept.of_mapErr hexact.of_append.1
    split_ifs at htail with hprotocol
    · cases htail.of_done.2
    · obtain ⟨answered, last, ⟨⟩, rfl, hok, hlast⟩ := htail.of_bind
      obtain ⟨rfl, hresult⟩ := hlast.of_done
      cases hresult
      obtain ⟨frame, rfl, hmessage⟩ := Request.of_ok hok.of_mapErr
      exact ⟨accepted, frame, ⟨haccepted, get_of_checked hprotocol⟩, hmessage, by rw [List.append_nil]⟩

/-- The session goes by the stream of its request. -/
private theorem of_session_id (h : (lift connect.session_id : Async Quic WTError VarInt).Follows script id) :
    script = [] ∧ id.into_inner = connect.inner.writer.value := by
  obtain ⟨rfl, hid⟩ := h.of_done
  rw [session_id] at hid
  cases hvalue : VarInt.from_u64 connect.inner.writer.value with
  | ok id' =>
    rw [hvalue] at hid
    cases hid
    exact ⟨rfl, from_u64_eq_ok hvalue⟩
  | err | panic | diverge =>
    rw [hvalue] at hid
    cases hid

/-- The operation is part of the request of the client, which comes first and once, or it is the response
of the server, which comes last, behind a request. -/
def Speaks (side : Side) (script : Script Quic) (entry : (op : Op) × op.Answer) : Prop :=
  match side with
  | .Client => Request.Asks open_headers script entry.1
  | .Server => ∃ request connect, Requested connect request ∧ connect.inner.Responds entry.1 ∧
      script = request ++ [entry]

private theorem speaks_setup {m : Async Quic WTError Connect} {entry : (op : Op) × op.Answer}
    (h : Ran script (setup side fuel orders) m) (hexact : Exact script) (hentry : entry ∈ script)
    (hsends : entry.1.Sends) : Speaks side script entry := by
  cases side with
  | Client =>
    obtain ⟨mid, hmid, -⟩ | ⟨asked, last, request, rfl, hasked, hlast⟩ := Ran.of_bind h
    · obtain ⟨mid', hmid', -⟩ := hmid.of_mapErr
      exact Request.asks_of_ran sendable_open_headers hmid' hentry hsends
    · obtain ⟨rfl, -⟩ := hlast.of_done
      rw [List.append_nil] at hentry ⊢
      exact Request.asks_of_ran sendable_open_headers hasked.of_mapErr.ran hentry hsends
  | Server =>
    have hquiet := (Request.quiet_accept fuel).mapErr WTError.H3Error
    obtain ⟨mid, hmid, -⟩ | ⟨accepted, tail, request, rfl, haccept, htail⟩ := Ran.of_bind h
    · exact absurd hsends ((hquiet.of_ran hmid).1 entry hentry)
    have hnot : entry ∉ accepted := fun hmem => (hquiet.of_ran haccept.ran).1 entry hmem hsends
    have hmem := (List.mem_append.mp hentry).resolve_left hnot
    split_ifs at htail with hprotocol
    · rw [(htail.of_done).1] at hmem
      exact absurd hmem List.not_mem_nil
    have hresponse : tail = [] ∨ ∃ entry, tail = [entry] ∧ request.Responds entry.1 := by
      obtain ⟨mid, hmid, -⟩ | ⟨before, after, ⟨⟩, rfl, hbefore, hafter⟩ := htail.of_bind
      · obtain ⟨last, hlast, -⟩ := hmid.of_mapErr
        exact Request.ran_ok hlast
      · rw [(hafter.of_done).1, List.append_nil]
        exact Request.ran_ok hbefore.of_mapErr.ran
    obtain rfl | ⟨entry', rfl, hresponds⟩ := hresponse
    · exact absurd hmem List.not_mem_nil
    · obtain rfl := List.mem_singleton.mp hmem
      have haccepted := Request.took_accept haccept.of_mapErr hexact.of_append.1
      exact ⟨accepted, { inner := request }, ⟨haccepted, get_of_checked hprotocol⟩, hresponds, rfl⟩

/-- The last that was read is a field section that overflows. -/
def Overflows (script : Script Quic) : Prop :=
  ∃ before reads stream fdata, script = before ++ reads ∧ SectionRead reads stream fdata ∧
    Headers.SectionOverflow fdata

private theorem panic_setup (h : Ran script (setup side fuel orders) (.done .panic)) (hexact : Exact script) :
    Overflows script := by
  cases side with
  | Client =>
    obtain hpanic | ⟨asked, tail, request, rfl, -, htail⟩ := Ran.panic_of_bind h
    · obtain ⟨stream, frame, reads, fdata, rfl, hread, hover⟩ :=
        Request.panic_open sendable_open_headers hpanic.panic_of_mapErr hexact
      exact ⟨[⟨.open_bi, .ok stream⟩, ⟨.write_all stream frame, .ok ()⟩], reads, stream, fdata, rfl, hread, hover⟩
    · cases htail.of_done.2
  | Server =>
    obtain hpanic | ⟨accepted, tail, request, rfl, -, htail⟩ := Ran.panic_of_bind h
    · obtain ⟨stream, reads, fdata, rfl, hread, hover⟩ := Request.panic_accept hpanic.panic_of_mapErr hexact
      exact ⟨[⟨.accept_bi, .ok stream⟩], reads, stream, fdata, rfl, hread, hover⟩
    · split_ifs at htail
      · cases htail.of_done.2
      · obtain hpanic | ⟨answered, last, ⟨⟩, rfl, -, hlast⟩ := htail.panic_of_bind
        · exact absurd hpanic ((Request.always_ok orders.response request).mapErr _).not_panic
        · cases hlast.of_done.2

/-- The stream of a session has an identifier of 62 bits. -/
private theorem Established.value_lt (h : connect.Established side script) (hexact : Exact script) :
    connect.inner.writer.value < 2 ^ 62 := by
  cases side with
  | Client =>
    obtain ⟨⟨⟨frame, reads, fdata, resp, -, rfl, -⟩, -⟩, -⟩ := h
    exact hexact _ List.mem_cons_self
  | Server =>
    obtain ⟨request, frame, ⟨⟨⟨reads, fdata, rfl, -⟩, -, -⟩, -⟩, -, rfl⟩ := h
    exact hexact _ List.mem_cons_self

end Connect

namespace Connection

variable {trace : Setup} {connection : Connection}

/-- How far a side has got with the handshake. -/
abbrev Came (side : Side) (fuel : Nat) (orders : Orders) (trace : Setup) : Prop :=
  TryJoin.Came ((wt_proto.h3.Settings.accept fuel).mapErr WTError.H3Error)
    ((Settings.offered.open_ orders.settings).mapErr WTError.H3Error)
    (fun values => Settings.check values >>= fun settings =>
      Connect.setup side fuel orders >>= Connection.establish settings) trace

/-- In every run a side gets on with its settings first, and with the request after those. -/
theorem came_of_reachable (hrun : Reachable TryJoin.Trace.step (.start (setup side fuel orders)) trace) :
    Came side fuel orders trace := by
  rw [setup_eq] at hrun
  exact TryJoin.came_of_reachable hrun

/-- The connection is about the streams of a handshake that this side has gone through. -/
def Agreed (side : Side) (scripts : Branch → Script Quic) (connection : Connection) : Prop :=
  ∃ (settings : Settings) (connect : Connect) (id : VarInt), settings.Exchanged scripts ∧
    connect.Established side (scripts .rest) ∧ id.into_inner = connect.inner.writer.value ∧
    connection = { id := some id, settings := some settings, connect := some connect, accept := some (.new id) }

/-- A side that has come back with a connection has exchanged settings and a request for it. -/
theorem Came.agreed (hcame : Came side fuel orders trace) (hexact : ∀ branch, Exact (trace.scripts branch))
    (hresult : trace.fut = .joined (.done (ok connection))) : Agreed side trace.scripts connection := by
  obtain ⟨values, writer, hleft, hright, hrest⟩ := TryJoin.Came.of_ok hcame hresult
  obtain ⟨checked, tail, settings, hscript, hcheck, htail⟩ := hrest.of_bind
  obtain ⟨connected, last, connect, rfl, hconnect, hlast⟩ := htail.of_bind
  obtain ⟨identified, final, id, rfl, hid, hfinal⟩ := hlast.of_bind
  obtain ⟨rfl, hresult⟩ := hfinal.of_done
  cases hresult
  obtain ⟨rfl, hvalue⟩ := Connect.of_session_id hid
  obtain ⟨rfl, -⟩ := Settings.of_check hcheck
  rw [List.nil_append, List.append_nil, List.append_nil] at hscript
  have hexact_rest := hexact .rest
  rw [hscript] at hexact_rest
  refine ⟨settings, connect, id, Settings.exchanged hexact hleft hright hcheck, ?_, hvalue, rfl⟩
  rw [hscript]
  exact Connect.of_setup hconnect hexact_rest

/-- Whatever the peer and the network do, a connection has gone through the whole handshake, and it
is about the streams of the handshake. -/
theorem setup_sound (hrun : Reachable TryJoin.Trace.step (.start (setup side fuel orders)) trace)
    (hexact : ∀ branch, Exact (trace.scripts branch)) (hresult : trace.fut = .joined (.done (ok connection))) :
    ∃ settings connect id, settings.Exchanged trace.scripts ∧ connect.Established side (trace.scripts .rest) ∧
      id.into_inner = connect.inner.writer.value ∧
      connection = { id := some id, settings := some settings, connect := some connect, accept := some (.new id) } :=
  (came_of_reachable hrun).agreed hexact hresult

private theorem always_establish (settings : Settings) {connect : Connect} (hlt : connect.inner.writer.value < 2 ^ 62) :
    Always (fun _ => False) False (establish settings connect) := by
  rw [establish, Connect.session_id, VarInt.from_u64, dif_pos hlt]
  exact .done_ok _

/-- A run in which the peer is what it should be. -/
theorem exists_setup : ∃ (trace : Setup) (connection : Connection) (plan : Plan),
    Reachable TryJoin.Trace.step (.start (setup .Server 1 (Handshake.in_order .Server))) trace ∧
      (∀ branch, Exact (trace.scripts branch)) ∧ trace.fut = .joined (.done (ok connection)) ∧
      trace.scripts = Task.scripts plan.script .Server := by
  obtain ⟨plan, -, hserver⟩ := exists_plan Handshake.in_order 0
  refine ⟨_, _, plan, TryJoin.reachable_of_follows Op.refused hserver, fun branch => ?_, rfl, rfl⟩
  apply exact_calls
  cases branch with
  | left | right | rest => decide

/-- A server that accepts a request, with the answers of a client. -/
theorem setup_sound_in_order : ∃ (trace : Setup) (connection : Connection) (connect : Connect),
    trace.fut = .joined (.done (ok connection)) ∧ connection.connect = some connect ∧
      connect.Established .Server (trace.scripts .rest) := by
  obtain ⟨trace, connection, -, hrun, hexact, hresult, -⟩ := exists_setup
  obtain ⟨settings, connect, id, -, hestablished, -, rfl⟩ := setup_sound hrun hexact hresult
  exact ⟨trace, _, connect, hresult, rfl, hestablished⟩

/-- In every run, a side says nothing but its settings, on the control stream it has opened, until it knows
that the peer supports WebTransport. Then the client asks for the session, and the server says nothing
before that. -/
theorem setup_order (hrun : Reachable TryJoin.Trace.step (.start (setup side fuel orders)) trace)
    (hexact : ∀ branch, Exact (trace.scripts branch)) {branch : Branch} {entry : (op : Op) × op.Answer}
    (hentry : entry ∈ trace.scripts branch) (hsends : entry.1.Sends) :
    (branch = .right ∧ ∃ full control, Settings.offered.Sent full control ∧ Begins (trace.scripts .right) full) ∨
      branch = .rest ∧ (∃ settings : Settings, settings.Exchanged trace.scripts) ∧
        Connect.Speaks side (trace.scripts .rest) entry := by
  have hcame := came_of_reachable hrun
  cases branch with
  | left =>
    have hquiet := (wt_proto.h3.Settings.quiet_accept fuel).mapErr WTError.H3Error
    obtain ⟨l, hleft⟩ := TryJoin.Came.ran_left hcame
    exact absurd hsends ((hquiet.of_ran hleft).1 entry hentry)
  | right =>
    obtain ⟨r, hright⟩ := TryJoin.Came.ran_right hcame
    obtain ⟨mid, hmid, -⟩ := hright.of_mapErr
    have hsettings := wt_proto.h3.Settings.sendable_enable_webtransport 1
    exact .inl ⟨rfl, wt_proto.h3.Settings.ran_open hsettings hmid⟩
  | rest =>
    refine .inr ⟨rfl, ?_⟩
    obtain ⟨values, writer, m, hleft, hright, hran⟩ := TryJoin.Came.of_rest hcame (List.ne_nil_of_mem hentry)
    obtain ⟨mid, hmid, -⟩ | ⟨checked, tail, settings, hscript, hcheck, htail⟩ := hran.of_bind
    · rw [eq_nil_of_always (Settings.always_check (values, writer)) hmid] at hentry
      exact absurd hentry List.not_mem_nil
    obtain ⟨rfl, -⟩ := Settings.of_check hcheck
    rw [List.nil_append] at hscript
    have hexact_rest := hexact .rest
    refine ⟨⟨settings, Settings.exchanged hexact hleft hright hcheck⟩, ?_⟩
    rw [hscript] at hentry hexact_rest ⊢
    obtain ⟨mid, hmid, -⟩ | ⟨connected, last, connect, rfl, hconnect, hlast⟩ := htail.of_bind
    · exact Connect.speaks_setup hmid hexact_rest hentry hsends
    · have hlt := (Connect.of_setup hconnect hexact_rest.of_append.1).value_lt hexact_rest.of_append.1
      obtain rfl := eq_nil_of_always (always_establish settings hlt) hlast
      rw [List.append_nil] at hentry hexact_rest ⊢
      exact Connect.speaks_setup hconnect.ran hexact_rest hentry hsends

/-- The settings, and the response of the server. -/
theorem setup_order_in_order : ∃ (trace : Setup) (settings : Settings) (full : Script Quic) (control : StreamId)
    (entry : (op : Op) × op.Answer), Settings.offered.Sent full control ∧ Begins (trace.scripts .right) full ∧
      settings.Exchanged trace.scripts ∧ Connect.Speaks .Server (trace.scripts .rest) entry := by
  obtain ⟨trace, connection, plan, hrun, hexact, hresult, hscripts⟩ := exists_setup
  have hopens : ⟨.open_uni, .ok ⟨.Server, .Uni, 0⟩⟩ ∈ trace.scripts .right := by
    rw [hscripts]
    exact List.mem_cons_self
  have hwrites : ⟨.write_all ⟨.Client, .Bi, 0⟩ plan.response, .ok ()⟩ ∈ trace.scripts .rest := by
    rw [hscripts]
    apply List.mem_map.mpr
    exact ⟨.writes plan.response, List.mem_cons_of_mem _ (List.mem_append_right _ List.mem_cons_self), rfl⟩
  obtain ⟨-, full, control, hsent, hbegins⟩ | ⟨hrest, -⟩ := setup_order hrun hexact hopens trivial
  · obtain ⟨hright, -⟩ | ⟨-, ⟨settings, hsettings⟩, hspeaks⟩ := setup_order hrun hexact hwrites trivial
    · cases hright
    · exact ⟨trace, settings, full, control, _, hsent, hbegins, hsettings, hspeaks⟩
  · cases hrest

/-- A settings payload that ends behind an identifier has been read, or a field section that
overflows. -/
def Crashed (scripts : Branch → Script Quic) : Prop :=
  (∃ control fdata, wt_proto.h3.ControlRead (scripts .left) control fdata ∧
    wt_proto.h3.Settings.EndsAfterIdentifier fdata) ∨ Connect.Overflows (scripts .rest)

/-- A side that has panicked has read what it panics on. -/
theorem Came.crashed (hcame : Came side fuel orders trace) (hexact : ∀ branch, Exact (trace.scripts branch))
    (hresult : trace.fut = .joined (.done .panic)) : Crashed trace.scripts := by
  obtain hleft | hright | ⟨values, writer, -, -, hrest⟩ := TryJoin.Came.of_panic hcame hresult
  · exact .inl (wt_proto.h3.Settings.panic_accept hleft.panic_of_mapErr (hexact .left))
  · have hsafe :=
      @wt_proto.h3.Settings.always_open _ orders.settings (wt_proto.h3.Settings.sendable_enable_webtransport 1)
    exact absurd hright (hsafe.mapErr _).not_panic
  · obtain hcheck | ⟨checked, tail, settings, hscript, hcheck, htail⟩ := hrest.panic_of_bind
    · exact absurd hcheck (Settings.always_check (values, writer)).not_panic
    obtain ⟨rfl, -⟩ := Settings.of_check hcheck
    have hexact_rest := hexact .rest
    rw [List.nil_append] at hscript
    rw [hscript] at hexact_rest
    right
    rw [hscript]
    obtain hconnect | ⟨connected, last, connect, rfl, hconnect, hlast⟩ := htail.panic_of_bind
    · exact Connect.panic_setup hconnect hexact_rest
    · have hestablished := Connect.of_setup hconnect hexact_rest.of_append.1
      exact absurd hlast (always_establish settings (hestablished.value_lt hexact_rest.of_append.1)).not_panic

/-- A peer can make a side panic with a settings payload that ends behind an identifier, or with a
field section that overflows, and in no other way. -/
theorem setup_panic (hrun : Reachable TryJoin.Trace.step (.start (setup side fuel orders)) trace)
    (hexact : ∀ branch, Exact (trace.scripts branch)) (hresult : trace.fut = .joined (.done .panic)) :
    (∃ control fdata, wt_proto.h3.ControlRead (trace.scripts .left) control fdata ∧
      wt_proto.h3.Settings.EndsAfterIdentifier fdata) ∨ Connect.Overflows (trace.scripts .rest) :=
  (came_of_reachable hrun).crashed hexact hresult

/-- A stream of the peer, and a byte that has been read. -/
private def answering (byte : UInt8) : Branch × ((op : Op) → op.Answer) :=
  (.left, fun
    | .accept_uni | .accept_bi | .open_uni | .open_bi => .ok ⟨.Client, .Uni, 0⟩
    | .write_all _ _ => .ok ()
    | .read_exact _ _ => .ok [byte])

/-- The type of the control stream, then SETTINGS of length 1 with the identifier 8. -/
theorem setup_panic_lone_identifier : ∃ (trace : Setup) (control : StreamId) (fdata : List UInt8),
    trace.fut = .joined (.done .panic) ∧ wt_proto.h3.ControlRead (trace.scripts .left) control fdata ∧
      wt_proto.h3.Settings.EndsAfterIdentifier fdata := by
  obtain ⟨trace, hsteps, hresult, hleft, hright, hrest⟩ : ∃ trace : Setup,
      steps TryJoin.Trace.step (.start (setup .Server 1 (Handshake.in_order .Server)))
        [answering 0, answering 0, answering 4, answering 1, answering 8] = some trace ∧
      trace.fut = .joined (.done .panic) ∧
      trace.scripts .left = calls ⟨.Client, .Uni, 0⟩ [.accepts, .reads [0], .reads [4], .reads [1], .reads [8]] ∧
      trace.scripts .right = [] ∧ trace.scripts .rest = [] := ⟨_, rfl, rfl, rfl, rfl, rfl⟩
  have hexact : ∀ branch, Exact (trace.scripts branch) := by
    intro branch
    cases branch with
    | left =>
      rw [hleft]
      exact exact_calls (by decide) _
    | right =>
      rw [hright]
      exact List.forall_mem_nil _
    | rest =>
      rw [hrest]
      exact List.forall_mem_nil _
  obtain ⟨control, fdata, hread, hends⟩ | ⟨before, reads, stream, fdata, hscript, hread, -⟩ :=
    setup_panic (Reachable.steps .start hsteps) hexact hresult
  · exact ⟨trace, control, fdata, hresult, hread, hends⟩
  · obtain ⟨skipped, greases, frame, htook, -, enc, enc', len, rfl, henc, -⟩ := hread
    rw [hrest] at hscript
    obtain ⟨-, rfl⟩ := List.nil_eq_append_iff.mp hscript
    obtain ⟨-, hframe⟩ := List.append_eq_nil_iff.mp htook.eq_nil
    exact absurd (List.append_eq_nil_iff.mp hframe).1 henc.ne_nil

end Connection

end wt_rs
