import TableServer.Proofs.Json.Unambiguous

/-! When a document that is read back has the text it had before. A number may come back as another
one, yet the text stays as long as both are written the same; and the text of a document tells the
texts of its numbers apart, so there is no other way for it to stay. -/

namespace TableServer

namespace JsonNumber

/-- What the text of the number stands for is written the same, whether or not it is the number. -/
def KeepsText (value : JsonNumber) : Prop :=
  value.reread?.map write = some value.write

instance (value : JsonNumber) : Decidable value.KeepsText :=
  inferInstanceAs (Decidable (_ = _))

theorem isSome_of_keepsText {value : JsonNumber} (keeps : value.KeepsText) :
    value.reread?.isSome := by
  rw [KeepsText, Option.map_eq_some_iff] at keeps
  obtain ⟨other, found, _⟩ := keeps
  rw [found]
  rfl

theorem write_append_eq {number other : JsonNumber} {rest otherRest : List Char}
    (ends : Ends rest) (otherEnds : Ends otherRest)
    (same : number.write ++ rest = other.write ++ otherRest) :
    number.write = other.write ∧ rest = otherRest := by
  have texts := congrArg (List.takeWhile continues) same
  rw [(literal_write number).takeWhile ends, (literal_write other).takeWhile otherEnds] at texts
  rw [texts] at same
  exact ⟨texts, List.append_cancel_left same⟩

end JsonNumber

namespace Json

open JsonNumber (Ends KeepsText)

/-- If the texts begin alike, whatever follows them, they are the same down to the numbers. -/
def Splits (document other : Json) : Prop :=
  ∀ rest otherRest, Ends rest → Ends otherRest →
    document.write ++ rest = other.write ++ otherRest →
      document.EveryNumber KeepsText ∧ rest = otherRest

theorem splits_of_writeItems {items others : List Json} (each : List.Forall₂ Splits items others) :
    ∀ rest otherRest, writeItems items ++ rest = writeItems others ++ otherRest →
      (∀ item ∈ items, item.EveryNumber KeepsText) ∧ rest = otherRest := by
  induction each with
  | nil =>
    intro rest otherRest same
    exact ⟨by simp, List.append_cancel_left same⟩
  | @cons item other items others first further ih =>
    intro rest otherRest same
    cases further with
    | nil =>
      simp only [writeItems, List.append_assoc, List.singleton_append] at same
      obtain ⟨keeps, same⟩ := first _ _ (ends_closeArray _) (ends_closeArray _) same
      exact ⟨by simpa using keeps, (List.cons.inj same).2⟩
    | cons =>
      simp only [writeItems, List.append_assoc, List.cons_append] at same
      obtain ⟨keeps, same⟩ := first _ _ (ends_comma _) (ends_comma _) same
      obtain ⟨keepsRest, same⟩ := ih rest otherRest (List.cons.inj same).2
      exact ⟨List.forall_mem_cons.mpr ⟨keeps, keepsRest⟩, same⟩

theorem splits_of_writeMembers {members others : List (String × Json)}
    (each : List.Forall₂ (fun member other => member.1 = other.1 ∧ Splits member.2 other.2)
      members others) :
    ∀ rest otherRest, writeMembers members ++ rest = writeMembers others ++ otherRest →
      (∀ member ∈ members, member.2.EveryNumber KeepsText) ∧ rest = otherRest := by
  induction each with
  | nil =>
    intro rest otherRest same
    exact ⟨by simp, List.append_cancel_left same⟩
  | @cons member other members others first further ih =>
    intro rest otherRest same
    obtain ⟨key, value⟩ := member
    obtain ⟨otherKey, otherValue⟩ := other
    obtain ⟨rfl, first⟩ := first
    cases further with
    | nil =>
      simp only [writeMembers, List.append_assoc, List.cons_append, List.nil_append] at same
      have same := (List.cons.inj (List.append_cancel_left same)).2
      obtain ⟨keeps, same⟩ := first _ _ (ends_closeObject _) (ends_closeObject _) same
      exact ⟨by simpa using keeps, (List.cons.inj same).2⟩
    | cons =>
      simp only [writeMembers, List.append_assoc, List.cons_append] at same
      have same := (List.cons.inj (List.append_cancel_left same)).2
      obtain ⟨keeps, same⟩ := first _ _ (ends_comma _) (ends_comma _) same
      obtain ⟨keepsRest, same⟩ := ih rest otherRest (List.cons.inj same).2
      exact ⟨List.forall_mem_cons.mpr ⟨keeps, keepsRest⟩, same⟩

theorem splits_of_reread {document : Json} :
    ∀ other, document.reread? = some other → Splits document other := by
  induction document using Json.induct with
  | null | bool | string =>
    rintro _ ⟨⟩ rest otherRest _ _ same
    exact ⟨by simp [EveryNumber, parts], List.append_cancel_left same⟩
  | number value =>
    intro other found rest otherRest ends otherEnds same
    obtain ⟨otherValue, foundValue, rfl⟩ := Option.map_eq_some_iff.mp found
    obtain ⟨texts, same⟩ := JsonNumber.write_append_eq ends otherEnds same
    refine ⟨(everyNumber_number _ value).mpr ?_, same⟩
    rw [KeepsText, foundValue, Option.map_some, texts]
  | array items ih =>
    intro other found rest otherRest _ _ same
    rw [reread?, rereadItems?_eq_mapM, Option.map_eq_some_iff] at found
    obtain ⟨others, found, rfl⟩ := found
    have each := forall₂_of_mapM found ih
    simp only [write, List.cons_append] at same
    rw [everyNumber_array]
    exact splits_of_writeItems each rest otherRest (List.cons.inj same).2
  | object members ih =>
    intro other found rest otherRest _ _ same
    rw [reread?, rereadMembers?_eq_mapM, Option.map_eq_some_iff] at found
    obtain ⟨others, found, rfl⟩ := found
    have each : List.Forall₂ (fun member other => member.1 = other.1 ∧ Splits member.2 other.2)
        members others := by
      refine forall₂_of_mapM found fun member isMember other foundMember => ?_
      obtain ⟨value, foundValue, rfl⟩ := Option.map_eq_some_iff.mp foundMember
      exact ⟨rfl, ih member isMember value foundValue⟩
    simp only [write, List.cons_append] at same
    rw [everyNumber_object]
    exact splits_of_writeMembers each rest otherRest (List.cons.inj same).2

theorem writeItems_congr {items others : List Json}
    (each : List.Forall₂ (fun item other => item.write = other.write) items others) :
    writeItems items = writeItems others := by
  induction each with
  | nil => rfl
  | cons first further ih =>
    cases further with
    | nil => simp only [writeItems, first]
    | cons => simp only [writeItems, first] at ih ⊢; rw [ih]

theorem writeMembers_congr {members others : List (String × Json)}
    (each : List.Forall₂ (fun member other => member.1 = other.1 ∧ member.2.write = other.2.write)
      members others) :
    writeMembers members = writeMembers others := by
  induction each with
  | nil => rfl
  | @cons member other _ _ first further ih =>
    obtain ⟨key, value⟩ := member
    obtain ⟨otherKey, otherValue⟩ := other
    obtain ⟨rfl, first⟩ := first
    cases further with
    | nil => simp only [writeMembers, first]
    | cons => simp only [writeMembers, first] at ih ⊢; rw [ih]

theorem write_of_keepsText {document : Json} : ∀ other, document.reread? = some other →
    document.EveryNumber KeepsText → document.write = other.write := by
  induction document using Json.induct with
  | null | bool | string =>
    rintro _ ⟨⟩ _
    rfl
  | number value =>
    intro other found keeps
    obtain ⟨otherValue, foundValue, rfl⟩ := Option.map_eq_some_iff.mp found
    rw [everyNumber_number, KeepsText, foundValue, Option.map_some, Option.some.injEq] at keeps
    exact keeps.symm
  | array items ih =>
    intro other found keeps
    rw [reread?, rereadItems?_eq_mapM, Option.map_eq_some_iff] at found
    obtain ⟨others, found, rfl⟩ := found
    rw [everyNumber_array] at keeps
    rw [write, write, writeItems_congr (forall₂_of_mapM found fun item isItem other foundItem =>
      ih item isItem other foundItem (keeps item isItem))]
  | object members ih =>
    intro other found keeps
    rw [reread?, rereadMembers?_eq_mapM, Option.map_eq_some_iff] at found
    obtain ⟨others, found, rfl⟩ := found
    rw [everyNumber_object] at keeps
    refine congrArg (List.cons '{') (writeMembers_congr (forall₂_of_mapM found ?_))
    intro member isMember other foundMember
    obtain ⟨value, foundValue, rfl⟩ := Option.map_eq_some_iff.mp foundMember
    exact ⟨rfl, ih member isMember value foundValue (keeps member isMember)⟩

theorem write_reread_iff {document other : Json} (found : document.reread? = some other) :
    other.write = document.write ↔ document.EveryNumber KeepsText := by
  constructor
  · intro same
    have ends := JsonNumber.ends_nil
    exact (splits_of_reread other found [] [] ends ends (congrArg (· ++ []) same.symm)).1
  · exact fun keeps => (write_of_keepsText other found keeps).symm

/-- The double that `1e-30` is read as is written in another way. -/
example : (JsonNumber.read? false "1e-30".toList).map (fun found => decide found.1.KeepsText) =
    some false := by
  decide +kernel

end Json

end TableServer
