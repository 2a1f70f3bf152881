import Pingola.Http3.Wire
import Pingola.UpstreamH3.Worker

/-!
# Opening an upstream HTTP/3 request

`write_request_header` of `upstream_h3_connector.rs` and `H3Pool::open` of `upstream_h3.rs`: what the
connector asks the worker for.
-/

namespace Pingola
open ByteText

/-- What `write_request_header` passes to `H3Pool::open`. -/
structure OpenRequest where
  headers : List H3Header
  hasBody : Bool
  allowEarlyData : Bool

/-- The command of `H3Pool::open` for the id that it drew; only an upload hears that it is open. -/
def OpenRequest.command (request : OpenRequest) (id : ℕ) : Command :=
  .opens id request.headers request.hasBody request.allowEarlyData request.hasBody

end Pingola
