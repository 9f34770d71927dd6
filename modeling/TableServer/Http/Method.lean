import TableServer.Http.Token

/-! Request methods: any token, told apart by case. -/

namespace TableServer

structure Method where
  name : String
deriving DecidableEq

namespace Method

def ofName? (name : String) : Option Method :=
  if isToken name.toList then some ⟨name⟩ else none

def get : Method := ⟨"GET"⟩

def post : Method := ⟨"POST"⟩

def put : Method := ⟨"PUT"⟩

def patch : Method := ⟨"PATCH"⟩

def delete : Method := ⟨"DELETE"⟩

def head : Method := ⟨"HEAD"⟩

def connect : Method := ⟨"CONNECT"⟩

end Method

end TableServer
