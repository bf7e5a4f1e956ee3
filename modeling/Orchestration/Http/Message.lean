import Orchestration.Json.Text

/-! Requests and responses, as far as a route can see and set them. -/
namespace Orchestration

structure HttpRequest where
  method : String
  target : String
  body : ByteArray

structure HttpResponse where
  status : Nat
  contentType : Option String
  allow : Option String
  body : String
  deriving DecidableEq, Repr

namespace HttpResponse

def bare (status : Nat) : HttpResponse := ⟨status, none, none, ""⟩

def text (status : Nat) (body : String) : HttpResponse :=
  ⟨status, some "text/plain; charset=utf-8", none, body⟩

def json (status : Nat) (body : Json) : HttpResponse :=
  ⟨status, some "application/json", none, body.render⟩

def refused (status : Nat) (reason : String) : HttpResponse :=
  json status (.obj [("error", .str reason)])

def notAllowed (methods : List String) : HttpResponse :=
  { bare 405 with allow := some (",".intercalate methods) }

def withoutBody (r : HttpResponse) : HttpResponse := { r with body := "" }

end HttpResponse
end Orchestration
