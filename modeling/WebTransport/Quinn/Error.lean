namespace quinn

/-- Why a connection was lost. -/
inductive ConnectionError where
  | VersionMismatch
  | TransportError
  | ConnectionClosed
  | ApplicationClosed
  | Reset
  | TimedOut
  | LocallyClosed
  | CidsExhausted
  deriving DecidableEq, Repr

inductive ReadError where
  | Reset
  | ConnectionLost (error : ConnectionError)
  | ClosedStream
  | IllegalOrderedRead
  | ZeroRttRejected
  deriving DecidableEq, Repr

inductive ReadExactError where
  | FinishedEarly (read : Nat)
  | ReadError (error : ReadError)
  deriving DecidableEq, Repr

inductive WriteError where
  | Stopped
  | ConnectionLost (error : ConnectionError)
  | ClosedStream
  | ZeroRttRejected
  deriving DecidableEq, Repr

end quinn
