import WebTransport.Session.Hostile

open rust rust.Outcome rust.Async quinn transition

namespace quinn

/-- `quinn::crypto::rustls::HandshakeData`: the protocol both sides have agreed on, if any. -/
structure HandshakeData where
  protocol : Option (List UInt8)
  deriving DecidableEq

end quinn

namespace wt_proto.h3

def ALPN_H3 : List UInt8 := [0x68, 0x33]

end wt_proto.h3

namespace wt_rs.Endpoint

/-- The check of the protocol, on what `handshake_data` gives: it may be nothing, or something that
is no `HandshakeData`. -/
def check (handshake_data : Option (Option HandshakeData)) : Outcome WTError Unit :=
  match handshake_data with
  | none => err (.ProtocolError "Handshake Error : Cannot get Handshake Details")
  | some none => err (.ProtocolError "Handshake Error : ALPN Unknown")
  | some (some hdata) => do
    let alpn ← unwrap_some hdata.protocol
    if alpn = wt_proto.h3.ALPN_H3 then ok ()
    else err (.ProtocolError "Invalid ALPN : \x7balpn\x7d")

/-- How far `accept` of a server has got: it waits for a client, or for the QUIC handshake with it,
or both are over. -/
inductive Accept where
  | accepting
  | closed
  | connecting
  | lost (error : ConnectionError)
  | connected (handshake_data : Option (Option HandshakeData)) (upgrade : Connection.Setup)

/-- What it gets an answer to. -/
inductive Event where
  | accept (incoming : Bool)
  | incoming (result : Except ConnectionError (Option (Option HandshakeData)))
  | upgrade (event : Branch × ((op : Op) → op.Answer))

namespace Accept

variable {fuel : Nat} {orders : Orders} {s next : Accept} {connection : Connection} {event : Event}

def step (fuel : Nat) (orders : Orders) : Accept → Event → Option Accept
  | .accepting, .accept true => some .connecting
  | .accepting, .accept false => some .closed
  | .connecting, .incoming (.ok handshake_data) =>
    some (.connected handshake_data (.start (Connection.upgrade fuel orders)))
  | .connecting, .incoming (.error error) => some (.lost error)
  | .connected handshake_data upgrade, .upgrade event =>
    if check handshake_data = ok () then (upgrade.step event).map (.connected handshake_data) else none
  | _, _ => none

/-- What `accept` has come back with. -/
def result : Accept → Option (Outcome WTError Connection)
  | .accepting | .connecting => none
  | .closed => some (err (.AcceptError "Endpoint Accept Failed - conn closed probably"))
  | .lost error => some (err (.ConnectionError error))
  | .connected handshake_data upgrade =>
    match check handshake_data with
    | ok () =>
      match upgrade.fut with
      | .joined (.done result) => some result
      | _ => none
    | .err error => some (err error)
    | .panic => some .panic
    | .diverge => some .diverge

/-- The check passes for one protocol. -/
theorem check_eq_ok_iff {handshake_data : Option (Option HandshakeData)} :
    check handshake_data = ok () ↔ handshake_data = some (some ⟨some wt_proto.h3.ALPN_H3⟩) := by
  obtain - | - | ⟨⟨- | alpn⟩⟩ := handshake_data <;> simp [check, unwrap_some]

/-- It panics where no protocol was negotiated. -/
theorem check_eq_panic_iff {handshake_data : Option (Option HandshakeData)} :
    check handshake_data = .panic ↔ handshake_data = some (some ⟨none⟩) := by
  obtain - | - | ⟨⟨- | alpn⟩⟩ := handshake_data <;> simp [check, unwrap_some]
  split_ifs <;> simp

theorem check_ne_diverge (handshake_data : Option (Option HandshakeData)) : check handshake_data ≠ diverge := by
  obtain - | - | ⟨⟨- | alpn⟩⟩ := handshake_data <;> simp [check, unwrap_some]
  split_ifs <;> simp

/-- The upgrade runs like one on its own, and it does not run before the protocol is checked. -/
def Valid (fuel : Nat) (orders : Orders) : Accept → Prop
  | .connected handshake_data upgrade =>
    Reachable TryJoin.Trace.step (.start (Connection.setup .Server fuel orders)) upgrade ∧
      ∀ branch, upgrade.scripts branch ≠ [] → check handshake_data = ok ()
  | _ => True

/-- An event takes the call on, from the connection to the check and from there to the upgrade. -/
theorem Valid.step (hvalid : s.Valid fuel orders) (h : Accept.step fuel orders s event = some next) :
    next.Valid fuel orders := by
  cases s with
  | accepting =>
    cases event with
    | accept incoming => cases incoming <;> cases h <;> trivial
    | incoming | upgrade => cases h
  | connecting =>
    cases event with
    | incoming answer =>
      cases answer with
      | error error =>
        cases h
        trivial
      | ok handshake_data =>
        cases h
        exact ⟨.start, fun branch hscript => absurd rfl hscript⟩
    | accept | upgrade => cases h
  | connected handshake_data upgrade =>
    cases event with
    | upgrade event =>
      rw [Accept.step] at h
      split_ifs at h with hchecked
      obtain ⟨upgrade', hstep, rfl⟩ := Option.map_eq_some_iff.mp h
      exact ⟨.step hvalid.1 trivial hstep, fun _ _ => hchecked⟩
    | accept | incoming => cases h
  | closed | lost => cases event <;> cases h

/-- In every run the call comes through the connection, the check and the upgrade in order. -/
theorem valid_of_reachable (hrun : Reachable (step fuel orders) .accepting s) : s.Valid fuel orders := by
  refine Run.invariant (Valid fuel orders) ?_ (fun hvalid _ hstep => hvalid.step hstep) hrun
  trivial

/-- What is no error comes from the upgrade, or out of the check. -/
theorem result_cases {outcome : Outcome WTError Connection} (h : s.result = some outcome) :
    (∃ error, outcome = err error) ∨ ∃ handshake_data upgrade, s = .connected handshake_data upgrade ∧
      (check handshake_data = ok () ∧ upgrade.fut = .joined (.done outcome) ∨
        check handshake_data = .panic ∧ outcome = .panic) := by
  cases s with
  | accepting | connecting => cases h
  | closed | lost =>
    cases h
    exact .inl ⟨_, rfl⟩
  | connected handshake_data upgrade =>
    rw [result] at h
    cases hcheck : check handshake_data with
    | ok =>
      rw [hcheck] at h
      simp only at h
      split at h
      · rename_i outcome' hfut
        cases h
        exact .inr ⟨_, _, rfl, .inl ⟨hcheck, hfut⟩⟩
      · cases h
    | err error =>
      rw [hcheck] at h
      cases h
      exact .inl ⟨error, rfl⟩
    | panic =>
      rw [hcheck] at h
      cases h
      exact .inr ⟨_, _, rfl, .inr ⟨hcheck, rfl⟩⟩
    | diverge => exact absurd hcheck (check_ne_diverge handshake_data)

/-- Whatever clients come and do, `accept` of a server does nothing on the streams of a client that
has not agreed on `h3`, and a connection it returns is one with a client that has, and that has gone
through the whole handshake. A client makes it panic by agreeing on no protocol at all, or in the
ways in which it makes the handshake panic. -/
theorem accept_outcome (hrun : Reachable (step fuel orders) .accepting s)
    (hexact : ∀ handshake_data upgrade, s = .connected handshake_data upgrade →
      ∀ branch, Exact (upgrade.scripts branch)) :
    (∀ handshake_data upgrade branch, s = .connected handshake_data upgrade → upgrade.scripts branch ≠ [] →
      handshake_data = some (some ⟨some wt_proto.h3.ALPN_H3⟩)) ∧
    (∀ connection, s.result = some (ok connection) → ∃ upgrade,
      s = .connected (some (some ⟨some wt_proto.h3.ALPN_H3⟩)) upgrade ∧
        Connection.Agreed .Server upgrade.scripts connection) ∧
    (∀ upgrade, s = .connected (some (some ⟨none⟩)) upgrade → s.result = some .panic) ∧
    (s.result = some .panic → ∃ upgrade, s = .connected (some (some ⟨none⟩)) upgrade ∨
      s = .connected (some (some ⟨some wt_proto.h3.ALPN_H3⟩)) upgrade ∧ Connection.Crashed upgrade.scripts) := by
  have hvalid := valid_of_reachable hrun
  refine ⟨?_, ?_, ?_, ?_⟩
  · rintro handshake_data upgrade branch rfl hscript
    exact check_eq_ok_iff.mp (hvalid.2 branch hscript)
  · intro connection hresult
    obtain ⟨error, herror⟩ | ⟨handshake_data, upgrade, rfl, ⟨hcheck, hfut⟩ | ⟨-, hpanic⟩⟩ :=
      result_cases hresult
    · cases herror
    · obtain rfl := check_eq_ok_iff.mp hcheck
      exact ⟨upgrade, rfl, (Connection.came_of_reachable hvalid.1).agreed (hexact _ _ rfl) hfut⟩
    · cases hpanic
  · rintro upgrade rfl
    rfl
  · intro hresult
    obtain ⟨error, herror⟩ | ⟨handshake_data, upgrade, rfl, ⟨hcheck, hfut⟩ | ⟨hcheck, -⟩⟩ :=
      result_cases hresult
    · cases herror
    · obtain rfl := check_eq_ok_iff.mp hcheck
      exact ⟨upgrade, .inr ⟨rfl, (Connection.came_of_reachable hvalid.1).crashed (hexact _ _ rfl) hfut⟩⟩
    · obtain rfl := check_eq_panic_iff.mp hcheck
      exact ⟨upgrade, .inl rfl⟩

/-- A client agrees on `h3`, and the upgrade runs. -/
private theorem reachable_connected {upgrade : Connection.Setup}
    (hrun : Reachable TryJoin.Trace.step (.start (Connection.setup .Server fuel orders)) upgrade) :
    Reachable (step fuel orders) .accepting (.connected (some (some ⟨some wt_proto.h3.ALPN_H3⟩)) upgrade) := by
  have hconnected : steps (step fuel orders) .accepting
      [.accept true, .incoming (.ok (some (some ⟨some wt_proto.h3.ALPN_H3⟩)))] =
        some (.connected _ (.start (Connection.setup .Server fuel orders))) := rfl
  refine hrun.invariant (fun upgrade => Reachable (step fuel orders) .accepting (.connected _ upgrade))
    (Reachable.steps .start hconnected) fun {upgrade next event} hupgrade _ hstep => ?_
  refine .step hupgrade trivial (show step fuel orders _ (.upgrade event) = _ from ?_)
  rw [step, if_pos (check_eq_ok_iff.mpr rfl), hstep]
  rfl

/-- A client that offers no protocol, and one that goes through the handshake. -/
theorem accept_outcome_two_clients :
    (∃ s : Accept, s.result = some .panic ∧ ∃ upgrade, s = .connected (some (some ⟨none⟩)) upgrade ∨
      s = .connected (some (some ⟨some wt_proto.h3.ALPN_H3⟩)) upgrade ∧ Connection.Crashed upgrade.scripts) ∧
    ∃ (s : Accept) (connection : Connection), s.result = some (ok connection) ∧ ∃ upgrade,
      s = .connected (some (some ⟨some wt_proto.h3.ALPN_H3⟩)) upgrade ∧
        Connection.Agreed .Server upgrade.scripts connection := by
  constructor
  · obtain ⟨s, hsteps, hs⟩ : ∃ s, steps (step 1 (Handshake.in_order .Server)) .accepting
        [.accept true, .incoming (.ok (some (some ⟨none⟩)))] = some s ∧
        s = .connected (some (some ⟨none⟩)) (.start (Connection.upgrade 1 (Handshake.in_order .Server))) :=
      ⟨_, rfl, rfl⟩
    have hexact : ∀ handshake_data upgrade, s = .connected handshake_data upgrade →
        ∀ branch, Exact (upgrade.scripts branch) := by
      intro handshake_data upgrade heq branch
      rw [hs] at heq
      cases heq
      exact List.forall_mem_nil _
    obtain ⟨-, -, hno_protocol, hpanic⟩ := accept_outcome (Reachable.steps .start hsteps) hexact
    have hresult := hno_protocol _ hs
    exact ⟨s, hresult, hpanic hresult⟩
  · obtain ⟨upgrade, connection, -, hrun, hexact, hfut, -⟩ := Connection.exists_setup
    have hresult :
        (Accept.connected (some (some ⟨some wt_proto.h3.ALPN_H3⟩)) upgrade).result = some (ok connection) := by
      rw [result, check_eq_ok_iff.mpr rfl]
      simp only [hfut]
    obtain ⟨-, hreturned, -, -⟩ := accept_outcome (reachable_connected hrun) fun _ _ heq => by
      cases heq
      exact hexact
    exact ⟨_, connection, hresult, hreturned connection hresult⟩

end Accept

end wt_rs.Endpoint
