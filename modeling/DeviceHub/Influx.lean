import DeviceHub.Config
import DeviceHub.Influx.Url
import DeviceHub.Influx.Writer

/-!
# The store of points

* `Influx.Target`    where batches are posted;
* `Target.request?`  the request that posts a batch.
-/

namespace DeviceHub.Influx

/-- where batches are posted -/
structure Target where
  url : String
  org : String
  bucket : String
  token : String

/-- a request that posts a batch -/
structure Post where
  url : Url
  authorization : String
  contentType : String
  body : String

/-- the target of a configuration, which needs a token -/
def Target.ofConfig (c : Config.Influx) : Except SinkError Target :=
  match c.token.filter fun t => !t.isEmpty with
  | none => .error (.write "influx token is empty")
  | some token =>
    let base := (c.url.toList.reverse.dropWhile (· = '/')).reverse
    .ok ⟨String.ofList base ++ "/api/v2/write", c.org, c.bucket, token⟩

/-- whether a character may stand in the value of a header -/
def isHeaderChar (c : Char) : Bool := c = '\t' || (0x20 ≤ c.toNat && c ≠ '\x7f')

/-- the request that posts a batch; without an absolute URL or with a control character in the token
there is none -/
def Target.request? (t : Target) (body : String) : Option Post := do
  let url ← Url.ofText? t.url
  if t.token.toList.all isHeaderChar then
    return {
      url := url.withQuery [("org", t.org), ("bucket", t.bucket), ("precision", "ms")]
      authorization := "Token " ++ t.token
      contentType := "text/plain; charset=utf-8"
      body := body }
  else none

end DeviceHub.Influx
