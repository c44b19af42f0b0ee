import HttpMonitoring.Credentials
import HttpMonitoring.Library.FormUrlencoded

/-!
# The token in the requests of the dashboard

The page puts its token into the query with `URLSearchParams`, which serializes
it as form data; `check_api_token` compares the bytes of the query as they
stand. A text is the list of its UTF-8 bytes.
-/

namespace HttpMonitoring.DashboardToken

open Nginx Library.CString Library.FormUrlencoded Exchange Access Credentials

variable {w : Nat}

def search (token : Bytes) : Bytes := ascii "?token=" ++ encode token

/-- The function `q` of the page; an empty token is not forwarded. -/
def q (path token : Bytes) : Bytes := if token = [] then path else path ++ search token

def queryString (uri : Bytes) : Bytes := (uri.dropWhile (· ≠ 63)).drop 1

/-- The core's `ngx_http_arg`: the name at the start of a parameter, in any
case, and the raw bytes behind its equals sign. -/
def httpArg (name : Bytes) : Bool → Bytes → Option Bytes
  | _, [] => none
  | start, c :: rest =>
    if start ∧ strncasecmpEq name.length (c :: rest) name ∧ (c :: rest)[name.length]? = some 61 then
      some (((c :: rest).drop (name.length + 1)).takeWhile (· ≠ 38))
    else httpArg name (c = 38) rest

/-- The value of the one parameter of a query, without any decoding. -/
def RawArg (arg : Bytes → Bytes → Option Bytes) : Prop :=
  ∀ value, (38 : UInt8) ∉ value → arg (ascii "token=" ++ value) (ascii "token") = some value

theorem rawArg_httpArg : RawArg fun args name => httpArg name true args := by
  intro value hValue
  have hLower : 0 ∉ lower (ascii "token") := by decide
  have hName : strncasecmpEq 5 (ascii "token=" ++ value) (ascii "token") = true :=
    (strncasecmpEq_iff hLower _).mpr rfl
  have hAll : value.takeWhile (· ≠ 38) = value := by
    rw [List.takeWhile_eq_self_iff]
    intro b hb
    have hNe : b ≠ 38 := fun h => hValue (h ▸ hb)
    simpa using hNe
  show httpArg (ascii "token") true (116 :: (ascii "oken=" ++ value)) = some value
  rw [httpArg, if_pos ⟨rfl, hName, rfl⟩]
  exact congrArg some hAll

theorem queryString_q {path token : Bytes} (hPath : (63 : UInt8) ∉ path) (hToken : token ≠ []) :
    queryString (q path token) = ascii "token=" ++ encode token := by
  have hAll : ∀ b ∈ path, (decide (b ≠ 63)) = true := by
    intro b hb
    have hNe : b ≠ 63 := fun h => hPath (h ▸ hb)
    simpa using hNe
  rw [q, if_neg hToken, queryString, List.dropWhile_append_of_pos hAll]
  rfl

/-- The page's request carries no other credential. -/
structure Forwards (r : HttpRequest w) (path token : Bytes) : Prop where
  noQuery : (63 : UInt8) ∉ path
  args : r.args = queryString (q path token)
  header : headerValue r (ascii "X-Monitor-Token") = none
  authorization : r.authorization = none

/-- The request passes exactly if the serializer leaves the token as it is. -/
theorem dashboard_token_passes_iff {core : Core w} (hArg : RawArg core.arg) {r : HttpRequest w}
    {mlcf : LocConf w} {path : Bytes} (hToken : mlcf.apiToken ≠ [])
    (h : Forwards r path mlcf.apiToken) :
    checkApiToken core r mlcf = rcOk ↔ ∀ b ∈ mlcf.apiToken, Unreserved b := by
  have hValue : core.arg r.args (ascii "token") = some (encode mlcf.apiToken) := by
    rw [h.args, queryString_q h.noQuery hToken]
    exact hArg _ (ampersand_notMem_encode _)
  rw [checkApiToken_iff, hValue, h.header, h.authorization, Option.some_inj, encode_eq_self_iff]
  simp [hToken]

def rawCore : Core 64 :=
  { Handlers.acceptingCore with arg := fun args name => httpArg name true args }

def apiRequest (token : Bytes) : HttpRequest 64 :=
  { Handlers.getRequest (ascii "/monitor/api") with
    args := queryString (q (ascii "/monitor/api") token) }

def tokenConf (token : Bytes) : LocConf 64 := { Handlers.defaultLocConf with apiToken := token }

theorem dashboard_token_declined : RawArg rawCore.arg ∧
    Forwards (apiRequest (ascii "a+b")) (ascii "/monitor/api") (ascii "a+b") ∧
    checkApiToken rawCore (apiRequest (ascii "a+b")) (tokenConf (ascii "a+b")) ≠ rcOk :=
  ⟨rawArg_httpArg, ⟨by decide, rfl, by decide, rfl⟩, by decide⟩

theorem dashboard_token_passes_plain :
    checkApiToken rawCore (apiRequest (ascii "s3cret-token")) (tokenConf (ascii "s3cret-token")) =
      rcOk := by
  have hForwards : Forwards (apiRequest (ascii "s3cret-token")) (ascii "/monitor/api")
      (tokenConf (ascii "s3cret-token")).apiToken := ⟨by decide, rfl, by decide, rfl⟩
  exact (dashboard_token_passes_iff rawArg_httpArg (by decide) hForwards).mpr (by decide +kernel)

end HttpMonitoring.DashboardToken
