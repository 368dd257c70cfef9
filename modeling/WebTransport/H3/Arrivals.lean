import WebTransport.H3.FrameCodec
import WebTransport.Quinn.Reading

open rust rust.Outcome rust.Async quinn wt_proto.coding transition

namespace wt_proto.h3.Frame

variable {stream : StreamId} {lost : Option ConnectionError} {taken : List UInt8} {ended : Option End}

end wt_proto.h3.Frame
