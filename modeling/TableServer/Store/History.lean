import TableServer.Store.Basic

/-! What can happen to a store: the operations it is asked for, and what others do to the place of
its file in the meantime. -/

namespace TableServer

inductive SlotChange where
  | overwrite (content : ByteArray)
  | remove
  | block
  | unblock
  | permit (access : Access)

def Slot.change (slot : Slot) : SlotChange → Slot
  | .overwrite content => slot.overwrite content
  | .remove => slot.remove
  | .block => slot.block
  | .unblock => slot.unblock
  | .permit access => slot.permit access

inductive StoreEvent where
  | select (table : String) (filter : Option Where)
  | insert (table : String) (record : Record)
  | update (table : String) (patch : Record) (filter : Option Where)
  | delete (table : String) (filter : Option Where)
  | flush
  | reopen
  /-- Nobody asks the store, and its tables stay as they are. -/
  | outside (change : SlotChange)

inductive StoreAnswer where
  | done
  | rows (records : List Record)

namespace Store

def answering {α : Type} (answer : α → StoreAnswer) (outcome : Except StoreError α × Store) :
    Except StoreError StoreAnswer × Store :=
  (outcome.1.map answer, outcome.2)

def answeringDone : Except StoreError Unit × Store → Except StoreError StoreAnswer × Store :=
  answering fun _ => .done

def happen (store : Store) : StoreEvent → Except StoreError StoreAnswer × Store
  | .select table filter => answering .rows (store.select table filter)
  | .insert table record => answeringDone (store.insert table record)
  | .update table patch filter => answeringDone (store.update table patch filter)
  | .delete table filter => answeringDone (store.delete table filter)
  | .flush => answeringDone store.flush
  | .reopen => answeringDone store.reopen
  | .outside change => (.ok .done, { store with slot := store.slot.change change })

end Store

end TableServer
