import TableServer.Proofs.Json.Meaning
import TableServer.Proofs.Store.RoundTrip
import TableServer.Proofs.Store.WriteBack

/-! Opening a store. Which files are accepted and as which tables, and what is left of the file and
of the store otherwise. -/

namespace TableServer

namespace Tables

def SectionReadAs (written entry : String × List Record) : Prop :=
  List.Forall₂ Json.MembersStandFor written.2 entry.2 ∧ written.1 = entry.1

/-- What a file says in which names of tables and of fields may come again. -/
def ReadAs (written tables : Tables) : Prop :=
  ∃ entries : Tables, List.Forall₂ SectionReadAs written entries ∧ Entries.KeepsLast entries tables

end Tables

namespace Store

def repeated : Tables :=
  [("notes", [[("text", .null)]]), ("notes", [])]

end Store

end TableServer
