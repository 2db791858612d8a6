/-
`POST /upload` of the web server (`nxfr-web/src/lib.rs`): the loop that takes
the body of the part off the connection.

The loop looks for CRLF, two dashes and the boundary in what it has buffered.
Without finding it, it writes all but the last bytes of the buffer, as many as
the delimiter has, and reads on. The buffer starts with what came after the
part headers in the reads before. A read of no bytes is the end of the
connection; a read that fails or takes more than thirty seconds ends the loop
with an error too. Writes to the temporary file succeed.
-/
import Nxfr.Delimited
import Nxfr.Messages

namespace Nxfr.Web

open Delimited

/-- The bytes of CRLF and two dashes, then the boundary. -/
def needle (boundary : Bytes) : Bytes := [0x0d, 0x0a, 0x2d, 0x2d] ++ boundary

/-- The delimiter without its CRLF. -/
def altNeedle (boundary : Bytes) : Bytes := [0x2d, 0x2d] ++ boundary

/-- How the loop ends: with the file written, with 413, or with the error of a
client that is gone. The bytes are those written to the temporary file, which
the guard removes in the last two cases. -/
inductive BodyEnd where
  | stored (written : Bytes)
  | tooLarge (written : Bytes)
  | disconnected (written : Bytes)
  deriving DecidableEq

/-- A turn of the loop, up to its read. -/
inductive BodyTurn where
  | done (e : BodyEnd)
  | more (buffer written : Bytes)
  deriving DecidableEq

section

variable (boundary : Bytes) (maxAllowed : Nat)

def bodyTurn (buffer written : Bytes) : BodyTurn := match find (needle boundary) buffer with
  | some pos =>
    let chunkToWrite := buffer.take pos
    if chunkToWrite ≠ [] then
      if written.length + chunkToWrite.length > maxAllowed then .done (.tooLarge written)
      else .done (.stored (written ++ chunkToWrite))
    else .done (.stored written)
  | none =>
    if written.length = 0 ∧ (altNeedle boundary).isPrefixOf buffer then .done (.stored written)
    else if buffer.length > (needle boundary).length then
      let safeLen := buffer.length - (needle boundary).length
      let chunkToWrite := buffer.take safeLen
      if written.length + chunkToWrite.length > maxAllowed then .done (.tooLarge written)
      else .more (buffer.drop safeLen) (written ++ chunkToWrite)
    else .more buffer written

/-- The loop, on what `read` returns. -/
def bodyLoop : List Bytes → Bytes → Bytes → BodyEnd
  | [], buffer, written => match bodyTurn boundary maxAllowed buffer written with
    | .done e => e
    | .more _ written => .disconnected written
  | n :: reads, buffer, written => match bodyTurn boundary maxAllowed buffer written with
    | .done e => e
    | .more buffer written => if n = [] then .disconnected written else bodyLoop reads (buffer ++ n) written

end

end Nxfr.Web
