/-! Status codes as people read them. -/

namespace TableServer

def reasonOf? : Nat → Option String
  | 200 => some "OK"
  | 201 => some "Created"
  | 202 => some "Accepted"
  | 204 => some "No Content"
  | 301 => some "Moved Permanently"
  | 302 => some "Found"
  | 304 => some "Not Modified"
  | 400 => some "Bad Request"
  | 401 => some "Unauthorized"
  | 403 => some "Forbidden"
  | 404 => some "Not Found"
  | 405 => some "Method Not Allowed"
  | 408 => some "Request Timeout"
  | 409 => some "Conflict"
  | 413 => some "Payload Too Large"
  | 415 => some "Unsupported Media Type"
  | 422 => some "Unprocessable Entity"
  | 429 => some "Too Many Requests"
  | 500 => some "Internal Server Error"
  | 501 => some "Not Implemented"
  | 502 => some "Bad Gateway"
  | 503 => some "Service Unavailable"
  | 504 => some "Gateway Timeout"
  | _ => none

def statusText (status : Nat) : String :=
  toString status ++ " " ++ (reasonOf? status).getD "<unknown status code>"

end TableServer
