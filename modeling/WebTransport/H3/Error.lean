import WebTransport.Coding.VarInt
import WebTransport.Qpack.Prefix

open wt_proto.coding

namespace wt_proto.h3

inductive H3Error where
  | SettingsError
  | CodingError (error : CodingError)
  | ConnectionError (error : quinn.ConnectionError)
  | ProtocolError (message : String)
  | ReadExactError (error : quinn.ReadExactError)
  | WriteErrir (error : quinn.WriteError)
  | QpackDeocdeError (error : qpack.DecodeError)
  | ConnectError
  deriving DecidableEq

end wt_proto.h3
