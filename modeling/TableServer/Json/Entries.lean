/-! Ordered maps as lists of entries. A key keeps the position of its first entry; a later value
for the same key replaces the value and moves nothing. -/

namespace TableServer

abbrev Entries (α : Type) := List (String × α)

namespace Entries

variable {α : Type}

def keys (entries : Entries α) : List String :=
  entries.map Prod.fst

def get? (entries : Entries α) (key : String) : Option α :=
  entries.lookup key

def has (entries : Entries α) (key : String) : Bool :=
  (entries.get? key).isSome

def put : Entries α → String → α → Entries α
  | [], key, value => [(key, value)]
  | entry :: rest, key, value =>
    if entry.1 = key then (key, value) :: rest else entry :: put rest key value

def ofList (pairs : List (String × α)) : Entries α :=
  pairs.foldl (fun entries pair => entries.put pair.1 pair.2) []

def Distinct (entries : Entries α) : Prop :=
  entries.keys.Nodup

theorem get?_cons (entry : String × α) (rest : Entries α) (key : String) :
    get? (entry :: rest) key = if key = entry.1 then some entry.2 else get? rest key := by
  obtain ⟨name, value⟩ := entry
  by_cases same : key = name
  · simp [get?, same]
  · simp [get?, List.lookup_cons, beq_eq_false_iff_ne.mpr same, same]

theorem mem_of_get? {entries : Entries α} {key : String} {value : α}
    (found : entries.get? key = some value) : (key, value) ∈ entries := by
  induction entries with
  | nil => cases found
  | cons entry rest ih =>
    rw [get?_cons] at found
    split at found
    · rename_i same
      cases found
      rw [same]
      exact List.mem_cons_self
    · exact List.mem_cons_of_mem entry (ih found)

theorem get?_put (entries : Entries α) (key other : String) (value : α) :
    (entries.put key value).get? other =
      if other = key then some value else entries.get? other := by
  induction entries with
  | nil => simp [put, get?_cons]
  | cons entry rest ih =>
    by_cases same : entry.1 = key
    · subst same
      by_cases found : other = entry.1 <;> simp [put, get?_cons, found]
    · by_cases found : other = entry.1
      · simp [put, get?_cons, same, found]
      · simp [put, get?_cons, same, found, ih]

theorem put_put (entries : Entries α) (key : String) (first second : α) :
    (entries.put key first).put key second = entries.put key second := by
  induction entries with
  | nil => simp [put]
  | cons entry rest ih =>
    by_cases same : entry.1 = key
    · simp [put, same]
    · simp [put, same, ih]

theorem put_of_get? {entries : Entries α} {key : String} {value : α}
    (found : entries.get? key = some value) : entries.put key value = entries := by
  induction entries with
  | nil => cases found
  | cons entry rest ih =>
    obtain ⟨name, first⟩ := entry
    rw [get?_cons] at found
    by_cases same : name = key
    · subst same
      simp only [if_true, Option.some.injEq] at found
      simp [put, found]
    · have different : key ≠ name := fun equal => same equal.symm
      rw [if_neg different] at found
      simp [put, same, ih found]

theorem has_eq_true_iff (entries : Entries α) (key : String) :
    entries.has key = true ↔ key ∈ entries.keys := by
  induction entries with
  | nil => simp [has, get?, keys]
  | cons entry rest ih =>
    rw [has] at ih ⊢
    rw [get?_cons]
    by_cases same : key = entry.1
    · simp [keys, same]
    · simpa [keys, same] using ih

theorem keys_put (entries : Entries α) (key : String) (value : α) :
    (entries.put key value).keys =
      if key ∈ entries.keys then entries.keys else entries.keys ++ [key] := by
  induction entries with
  | nil => simp [put, keys]
  | cons entry rest ih =>
    by_cases same : entry.1 = key
    · subst same
      simp [put, keys]
    · have different : key ≠ entry.1 := fun equal => same equal.symm
      simp only [keys] at ih
      by_cases present : key ∈ rest.map Prod.fst <;>
        simp [put, keys, same, different, ih, present]

theorem distinct_put (entries : Entries α) (key : String) (value : α)
    (distinct : entries.Distinct) : (entries.put key value).Distinct := by
  unfold Distinct at *
  rw [keys_put]
  split
  · exact distinct
  · rename_i absent
    refine List.nodup_append.mpr ⟨distinct, by simp, ?_⟩
    intro present member fresh single equal
    rw [List.mem_singleton] at single
    exact absent (single ▸ equal ▸ member)

theorem distinct_ofList (pairs : List (String × α)) : (ofList pairs).Distinct := by
  suffices general : ∀ entries : Entries α, entries.Distinct →
      (pairs.foldl (fun entries pair => entries.put pair.1 pair.2) entries).Distinct from
    general [] List.nodup_nil
  induction pairs with
  | nil => exact fun _ distinct => distinct
  | cons pair rest ih =>
    exact fun entries distinct => ih _ (distinct_put entries pair.1 pair.2 distinct)

theorem put_of_absent (entries : Entries α) (key : String) (value : α)
    (absent : key ∉ entries.keys) : entries.put key value = entries ++ [(key, value)] := by
  induction entries with
  | nil => rfl
  | cons entry rest ih =>
    simp only [keys, List.map_cons, List.mem_cons, not_or] at absent
    have different : entry.1 ≠ key := fun equal => absent.1 equal.symm
    simp [put, different, ih absent.2]

theorem mem_put {entries : Entries α} {key : String} {value : α} {entry : String × α}
    (member : entry ∈ entries.put key value) : entry ∈ entries ∨ entry = (key, value) := by
  induction entries with
  | nil => exact Or.inr (by simpa [put] using member)
  | cons first rest ih =>
    by_cases same : first.1 = key
    · simp only [put, same, if_true, List.mem_cons] at member
      rcases member with member | member
      · exact Or.inr member
      · exact Or.inl (List.mem_cons_of_mem first member)
    · simp only [put, same, if_false, List.mem_cons] at member
      rcases member with rfl | member
      · exact Or.inl List.mem_cons_self
      · rcases ih member with member | member
        · exact Or.inl (List.mem_cons_of_mem first member)
        · exact Or.inr member

/-- Entries with distinct keys are already in order. -/
theorem ofList_of_distinct (pairs : List (String × α)) (distinct : Distinct pairs) :
    ofList pairs = pairs := by
  suffices general : ∀ entries : Entries α, Distinct (entries ++ pairs) →
      pairs.foldl (fun entries pair => entries.put pair.1 pair.2) entries = entries ++ pairs from
    general [] distinct
  clear distinct
  induction pairs with
  | nil => exact fun entries _ => (List.append_nil entries).symm
  | cons pair rest ih =>
    intro entries distinct
    have absent : pair.1 ∉ entries.keys := by
      intro present
      simp only [Distinct, keys, List.map_append, List.map_cons] at distinct
      exact (List.nodup_append.mp distinct).2.2 _ present _ List.mem_cons_self rfl
    have regrouped : entries ++ pair :: rest = (entries ++ [pair]) ++ rest := by simp
    rw [List.foldl_cons, put_of_absent entries pair.1 pair.2 absent, regrouped]
    rw [regrouped] at distinct
    exact ih (entries ++ [pair]) distinct

theorem mem_ofList {pairs : List (String × α)} {entry : String × α}
    (member : entry ∈ ofList pairs) : entry ∈ pairs := by
  suffices general : ∀ entries : Entries α,
      entry ∈ pairs.foldl (fun entries pair => entries.put pair.1 pair.2) entries →
        entry ∈ entries ∨ entry ∈ pairs by
    rcases general [] member with impossible | member
    · cases impossible
    · exact member
  clear member
  induction pairs with
  | nil => exact fun entries member => Or.inl member
  | cons pair rest ih =>
    intro entries member
    rcases ih _ member with member | member
    · rcases mem_put member with member | rfl
      · exact Or.inl member
      · exact Or.inr List.mem_cons_self
    · exact Or.inr (List.mem_cons_of_mem pair member)

theorem ofList_append_singleton (pairs : List (String × α)) (last : String × α) :
    ofList (pairs ++ [last]) = (ofList pairs).put last.1 last.2 := by
  simp [ofList, List.foldl_append]

theorem keys_ofList (pairs : List (String × α)) :
    (ofList pairs).keys = (keys pairs).eraseDups := by
  suffices general : ∀ reversed : List (String × α),
      (ofList reversed.reverse).keys = (keys reversed.reverse).eraseDups by
    have reversed := general pairs.reverse
    rwa [List.reverse_reverse] at reversed
  intro reversed
  induction reversed with
  | nil => rfl
  | cons last earlier ih =>
    have split : keys (earlier.reverse ++ [last]) = keys earlier.reverse ++ [last.1] :=
      List.map_append
    have known : last.1 ∈ (keys earlier.reverse).eraseDups ↔ last.1 ∈ keys earlier.reverse :=
      List.mem_eraseDups
    rw [List.reverse_cons, ofList_append_singleton, keys_put, ih, split, List.eraseDups_append]
    by_cases present : last.1 ∈ keys earlier.reverse
    · simp [known, present, List.removeAll]
    · simp [known, present, List.removeAll, List.eraseDups_cons]

theorem head?_keys_ofList (pairs : List (String × α)) :
    (ofList pairs).keys.head? = (keys pairs).head? := by
  rw [keys_ofList]
  cases pairs with
  | nil => rfl
  | cons pair rest => simp [keys, List.eraseDups_cons]

theorem get?_of_mem {entries : Entries α} (distinct : entries.Distinct) {key : String} {value : α}
    (member : (key, value) ∈ entries) : entries.get? key = some value := by
  induction entries with
  | nil => cases member
  | cons entry rest ih =>
    rw [Distinct, keys, List.map_cons, List.nodup_cons] at distinct
    rw [get?_cons]
    rcases List.mem_cons.mp member with rfl | later
    · exact if_pos rfl
    · have different : key ≠ entry.1 := by
        rintro rfl
        exact distinct.1 (List.mem_map.mpr ⟨_, later, rfl⟩)
      rw [if_neg different]
      exact ih distinct.2 later

theorem mem_iff_get? {entries : Entries α} (distinct : entries.Distinct) (key : String)
    (value : α) : (key, value) ∈ entries ↔ entries.get? key = some value :=
  ⟨get?_of_mem distinct, mem_of_get?⟩

/-- A key has the value of its last pair. -/
theorem get?_ofList (pairs : List (String × α)) (key : String) :
    (ofList pairs).get? key = get? pairs.reverse key := by
  suffices general : ∀ entries : Entries α,
      (pairs.foldl (fun entries pair => entries.put pair.1 pair.2) entries).get? key =
        (get? pairs.reverse key).or (entries.get? key) by
    rw [ofList, general []]
    cases get? pairs.reverse key <;> rfl
  induction pairs with
  | nil => exact fun _ => rfl
  | cons pair rest ih =>
    intro entries
    have last : get? (pair :: rest).reverse key =
        (get? rest.reverse key).or (get? [pair] key) := by
      rw [List.reverse_cons]
      exact List.lookup_append
    rw [List.foldl_cons, ih, get?_put, last, get?_cons]
    split <;> simp [get?]

/-- Keys stand in the order of their first pairs. -/
theorem find?_keys_ofList (chosen : String → Bool) (pairs : List (String × α)) :
    (ofList pairs).keys.find? chosen = (keys pairs).find? chosen := by
  suffices general : ∀ entries : Entries α,
      (pairs.foldl (fun entries pair => entries.put pair.1 pair.2) entries).keys.find? chosen =
        (entries.keys ++ keys pairs).find? chosen from general []
  induction pairs with
  | nil =>
    intro entries
    simp [keys]
  | cons pair rest ih =>
    intro entries
    have regrouped : keys (pair :: rest) = [pair.1] ++ keys rest := rfl
    rw [List.foldl_cons, ih, keys_put, regrouped, ← List.append_assoc]
    split
    · -- A key that is there already is not the first one chosen in its second place.
      rename_i known
      rw [List.find?_append, List.find?_append, List.find?_append]
      cases found : entries.keys.find? chosen with
      | some key => simp
      | none =>
        have refused := List.find?_eq_none.mp found pair.1 known
        simp [refused]
    · rfl

theorem eq_of_get? {entries others : Entries α} (distinct : entries.Distinct)
    (order : entries.keys = others.keys)
    (values : ∀ key, entries.get? key = others.get? key) : entries = others := by
  induction entries generalizing others with
  | nil => exact (List.map_eq_nil_iff.mp order.symm).symm
  | cons entry rest ih =>
    cases others with
    | nil => cases order
    | cons other further =>
      rw [keys, keys, List.map_cons, List.map_cons, List.cons.injEq] at order
      rw [Distinct, keys, List.map_cons, List.nodup_cons] at distinct
      have first := values entry.1
      rw [get?_cons, get?_cons, if_pos rfl, if_pos order.1, Option.some.injEq] at first
      have same : entry = other := Prod.ext order.1 first
      subst same
      rw [ih distinct.2 order.2]
      intro key
      by_cases isFirst : key = entry.1
      · -- The first key does not come again in either of the two.
        subst isFirst
        have absent (list : Entries α) (missing : entry.1 ∉ list.keys) :
            list.get? entry.1 = none := by
          rw [← has_eq_true_iff, has, Option.not_isSome_iff_eq_none] at missing
          exact missing
        have alsoAbsent : entry.1 ∉ keys further := by
          rw [keys, ← order.2]
          exact distinct.1
        rw [absent rest distinct.1, absent further alsoAbsent]
      · have next := values key
        rwa [get?_cons, get?_cons, if_neg isFirst, if_neg isFirst] at next

/-- Each key stands where its first pair stands, with the value of its last pair. -/
structure KeepsLast (pairs : List (String × α)) (entries : Entries α) : Prop where
  order : entries.keys = (keys pairs).eraseDups
  values : ∀ key, entries.get? key = get? pairs.reverse key

theorem keepsLast_iff (pairs : List (String × α)) (entries : Entries α) :
    KeepsLast pairs entries ↔ entries = ofList pairs := by
  constructor
  · rintro ⟨order, values⟩
    symm
    apply eq_of_get? (distinct_ofList pairs)
    · rw [keys_ofList, order]
    · intro key
      rw [get?_ofList, values]
  · rintro rfl
    exact ⟨keys_ofList pairs, get?_ofList pairs⟩

end Entries

end TableServer
