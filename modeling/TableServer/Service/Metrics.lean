import TableServer.Http.Method

/-! What the service counts: the requests it has answered, by method and status. -/

namespace TableServer

structure Metrics where
  requests : List ((Method × Nat) × Nat)

namespace Metrics

def none : Metrics := ⟨[]⟩

def count (key : Method × Nat) : List ((Method × Nat) × Nat) → List ((Method × Nat) × Nat)
  | [] => [(key, 1)]
  | entry :: rest =>
    if entry.1 = key then (entry.1, entry.2 + 1) :: rest else entry :: count key rest

def record (metrics : Metrics) (method : Method) (status : Nat) : Metrics :=
  ⟨count (method, status) metrics.requests⟩

def requestsName : String := "jsontable_requests_total"

def lineOf (entry : (Method × Nat) × Nat) : String :=
  requestsName ++ "\x7bmethod=\"" ++ entry.1.1.name ++ "\",status=\"" ++ toString entry.1.2 ++
    "\"\x7d " ++ toString entry.2 ++ "\n"

def render (metrics : Metrics) : String :=
  "# TYPE " ++ requestsName ++ " counter\n" ++ String.join (metrics.requests.map lineOf)

end Metrics

end TableServer
