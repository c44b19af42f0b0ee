import HttpMonitoring.Layout

/-!
# What the module uses of the core

Return codes, response codes and method bits of `ngx_core.h` and
`ngx_http_request.h`.
-/

namespace HttpMonitoring.Nginx

/-- An `ngx_int_t`: a return code of the core or a response code. -/
abbrev Rc := Int

def rcOk : Rc := 0
def rcError : Rc := -1
def rcAgain : Rc := -2
def rcDone : Rc := -4
def rcDeclined : Rc := -5

def httpOk : Nat := 200
def httpNoContent : Nat := 204
def httpUnauthorized : Nat := 401
def httpForbidden : Nat := 403
def httpNotFound : Nat := 404
def httpNotAllowed : Nat := 405
def httpTooManyRequests : Nat := 429
def httpInternalServerError : Nat := 500
def httpServiceUnavailable : Nat := 503

def httpGet : Nat := 0x0002
def httpHead : Nat := 0x0004
def httpPost : Nat := 0x0008
def httpPut : Nat := 0x0010
def httpDelete : Nat := 0x0020
def httpOptions : Nat := 0x0200
def httpPatch : Nat := 0x4000

/-- `method & bits` as a condition. -/
def hasMethod (method bits : Nat) : Bool := method &&& bits != 0

end HttpMonitoring.Nginx
