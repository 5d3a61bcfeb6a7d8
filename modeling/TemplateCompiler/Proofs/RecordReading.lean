import TemplateCompiler.Proofs.JsonText
import TemplateCompiler.Proofs.Outcomes

/-!
# Reading records out of values

A record is read from an object if each of its fields is there at most once, and each gives a value:
the one that is read there, or its default where the field is absent. Nothing else about the object
counts, neither the order of its members nor what other members there are. A variant is read like
the record that its tag chooses, from the object without the tag.
-/

namespace TemplateCompiler.Json

variable {α β : Type}

/-! ### Values as drafts -/

namespace Draft

mutual

/-- With room for all its levels a value is shown as it is. -/
theorem shown_of_depth_le {room : Nat} :
    (j : Json) → j.depth ≤ room → shown room j = ofJson j
  | .null, _ | .bool _, _ | .number _, _ | .string _, _ => rfl
  | .array items, fits => by
    rw [Json.depth] at fits
    rw [shown, if_neg (by omega), ofJson, shownItems_of_depth_le items (by omega)]
  | .object members, fits => by
    rw [Json.depth] at fits
    rw [shown, if_neg (by omega), ofJson, shownMembers_of_depth_le members (by omega)]

theorem shownItems_of_depth_le {room : Nat} :
    (items : List Json) → Json.depthOfItems items ≤ room → shownItems room items = ofJsonItems items
  | [], _ => rfl
  | item :: rest, fits => by
    rw [Json.depthOfItems, Nat.max_le] at fits
    rw [shownItems, ofJsonItems, shown_of_depth_le item fits.1, shownItems_of_depth_le rest fits.2]

theorem shownMembers_of_depth_le {room : Nat} :
    (members : List (String × Json)) → Json.depthOfMembers members ≤ room →
      shownMembers room members = ofJsonMembers members
  | [], _ => rfl
  | (_, value) :: rest, fits => by
    rw [Json.depthOfMembers, Nat.max_le] at fits
    rw [shownMembers, ofJsonMembers, shown_of_depth_le value fits.1,
      shownMembers_of_depth_le rest fits.2]

end

/-- A parsed value has no faults in it. -/
theorem breakInside_ofJson (j : Json) : (ofJson j).breakInside = none := by
  rw [← shown_of_depth_le j (Nat.le_refl _), breakInside_shown]

theorem fault?_ofJson (j : Json) : (ofJson j).fault? = none := by
  rw [fault?, ← shown_of_depth_le j (Nat.le_refl _), toJson_shown, if_pos (Nat.le_refl _)]

theorem ofJsonMembers_eq_map (members : List (String × Json)) :
    ofJsonMembers members = members.map fun member => (member.1, ofJson member.2) := by
  induction members with
  | nil => rfl
  | cons member rest ih => rw [ofJsonMembers, ih, List.map_cons]

theorem keys_ofJsonMembers (members : List (String × Json)) :
    (ofJsonMembers members).map Prod.fst = members.map Prod.fst := by
  rw [ofJsonMembers_eq_map, List.map_map]
  rfl

/-- A member is found in a draft where it is found in the value. -/
theorem lookup_ofJsonMembers (key : String) (members : List (String × Json)) :
    (ofJsonMembers members).lookup key = (members.lookup key).map ofJson := by
  induction members with
  | nil => rfl
  | cons member rest ih =>
    obtain ⟨name, value⟩ := member
    rw [ofJsonMembers, List.lookup_cons, List.lookup_cons]
    cases key == name
    · exact ih
    · rfl

end Draft

/-! ### Outcomes with places -/

namespace Placed

/-- Two outcomes together succeed if both do. -/
theorem seq_eq_ok {f : Placed (α → β)} {a : Placed α} {b : β} :
    (f <*> a) = (.ok b : Placed β) ↔ ∃ g x, f = .ok g ∧ a = .ok x ∧ g x = b := by
  constructor
  · intro done
    cases f with
    | error e => cases a <;> cases done
    | ok g =>
      cases a with
      | error e => cases done
      | ok x => exact ⟨g, x, rfl, rfl, Except.ok.inj done⟩
  · rintro ⟨g, x, rfl, rfl, rfl⟩
    rfl

theorem seqRight_eq_ok {f : Placed Unit} {a : Placed β} {b : β} :
    (f *> a) = (.ok b : Placed β) ↔ f = .ok () ∧ a = .ok b := by
  constructor
  · intro done
    cases f with
    | error e => cases a <;> cases done
    | ok =>
      cases a with
      | error e => cases done
      | ok x => exact ⟨rfl, done⟩
  · rintro ⟨rfl, rfl⟩
    rfl

theorem outcome_eq_ok {a : Placed α} {x : α} : a.outcome = .ok x ↔ a = .ok x := by
  constructor
  · intro done
    cases a with
    | error e => cases done
    | ok y => exact congrArg Except.ok (Except.ok.inj done)
  · rintro rfl
    rfl

theorem ofExcept_eq_ok {place : Nat} {a : Except Complaint α} {x : α} :
    ofExcept place a = .ok x ↔ a = .ok x := by
  constructor
  · intro done
    cases a with
    | error e => cases done
    | ok y => exact congrArg Except.ok (Except.ok.inj done)
  · rintro rfl
    rfl

end Placed

/-! ### Rows -/

/-- Each of some keys is there at most once. -/
def Once (keys : List String) (members : List (String × β)) : Prop :=
  ∀ key ∈ keys, (members.map Prod.fst).count key ≤ 1

theorem map_snd_firstWithKey? (key : String) (members : List (String × Draft)) :
    (firstWithKey? key members).map Prod.snd = members.lookup key := by
  induction members with
  | nil => rfl
  | cons member rest ih =>
    obtain ⟨name, draft⟩ := member
    rw [firstWithKey?, List.lookup_cons]
    by_cases same : name = key
    · rw [if_pos same, same, beq_self_eq_true]
      rfl
    · rw [if_neg same, beq_eq_false_iff_ne.mpr (Ne.symm same), Option.map_map, ← ih]
      rfl

/-- What a field gives: what is read there, or its default where it is absent. -/
def Gives (read : Reader α) (default : Option α) (source : Source) (found : Option Draft)
    (a : α) : Prop :=
  match found with
  | some draft => read source draft = .ok a
  | none => default = some a

namespace Row

variable {shape : Shape} {source : Source} {members : List (String × Draft)} {stop : Option Flaw}
  {key : String} {read : Reader α} {a : α}

/-- A field gives what its reader makes of the member, or its default. -/
theorem field_eq_ok {absent : Placed α} {default : Option α}
    (given : absent = .ok a ↔ default = some a) :
    field ⟨shape, source, .named members stop⟩ key read absent = .ok a ↔
      Gives read default source (members.lookup key) a := by
  rw [← map_snd_firstWithKey?]
  cases found : firstWithKey? key members with
  | none =>
    simp only [field, found]
    exact given
  | some first =>
    simp only [field, found]
    exact Placed.ofExcept_eq_ok

/-- A required field has no default. -/
theorem required_eq_ok :
    required ⟨shape, source, .named members stop⟩ key read = .ok a ↔
      Gives read none source (members.lookup key) a :=
  field_eq_ok ⟨(nomatch ·), (nomatch ·)⟩

theorem optional_eq_ok {default : α} :
    optional ⟨shape, source, .named members stop⟩ key read default = .ok a ↔
      Gives read (some default) source (members.lookup key) a :=
  field_eq_ok ⟨fun done => congrArg some (Except.ok.inj done),
    fun same => congrArg Except.ok (Option.some.inj same)⟩

/-- Members without a break are sound if no field is given twice. -/
theorem soundMembers_eq_ok {fields : List String} (place : Nat) (seen : List String)
    (sound : ∀ member ∈ members, member.2.breakInside = none) :
    soundMembers fields place seen members none = .ok () ↔
      ∀ key ∈ fields, (members.map Prod.fst).count key + (if key ∈ seen then 1 else 0) ≤ 1 := by
  induction members generalizing place seen with
  | nil =>
    refine ⟨fun _ key _ => ?_, fun _ => rfl⟩
    rw [List.map_nil, List.count_nil]
    split <;> omega
  | cons member rest ih =>
    obtain ⟨name, draft⟩ := member
    obtain ⟨first, others⟩ := List.forall_mem_cons.mp sound
    simp only [soundMembers, List.contains_eq_mem, decide_eq_true_eq]
    by_cases known : name ∈ fields
    · rw [if_pos known]
      by_cases again : name ∈ seen
      · rw [if_pos again]
        refine ⟨(nomatch ·), fun bounded => ?_⟩
        have twice := bounded name known
        rw [if_pos again, List.map_cons, List.count_cons_self] at twice
        omega
      · rw [if_neg again, ih _ _ others]
        refine forall₂_congr fun key _ => ?_
        by_cases same : key = name
        · rw [same, if_pos List.mem_cons_self, if_neg again, List.map_cons, List.count_cons_self]
        · rw [List.map_cons, List.count_cons_of_ne (Ne.symm same)]
          simp only [List.mem_cons, same, false_or]
    · rw [if_neg known, first]
      refine (ih _ _ others).trans (forall₂_congr fun key listed => ?_)
      have other : name ≠ key := fun same => known (same ▸ listed)
      rw [List.map_cons, List.count_cons_of_ne other]

/-- A row is sound if no known key is given twice. -/
theorem sound_eq_ok (sound_ : ∀ member ∈ members, member.2.breakInside = none) :
    sound ⟨shape, source, .named members none⟩ = .ok () ↔ Once shape.fields members := by
  refine (soundMembers_eq_ok 0 [] sound_).trans (forall₂_congr fun key _ => ?_)
  simp

end Row

/-! ### Records -/

section Records

variable {source : Source} {members : List (String × Json)} {a : α}

/-- The row of an object. -/
def rowOf (shape : Shape) (source : Source) (members : List (String × Json)) : Row :=
  ⟨shape, source, .named (Draft.ofJsonMembers members) none⟩

theorem rowOf_required {shape : Shape} {key : String} {read : Reader α} :
    (rowOf shape source members).required key read = .ok a ↔
      Gives read none source ((members.lookup key).map .ofJson) a := by
  rw [← Draft.lookup_ofJsonMembers]
  exact Row.required_eq_ok

theorem rowOf_optional {shape : Shape} {key : String} {read : Reader α} {default : α} :
    (rowOf shape source members).optional key read default = .ok a ↔
      Gives read (some default) source ((members.lookup key).map .ofJson) a := by
  rw [← Draft.lookup_ofJsonMembers]
  exact Row.optional_eq_ok

/-- A record is read if no field is given twice and its fields can be built. -/
theorem record_eq_ok {shape : Shape} {build : Row → Placed α} :
    Reader.record shape build source (.ofJson (.object members)) = .ok a ↔
      Once shape.fields members ∧ build (rowOf shape source members) = .ok a := by
  have sound : (rowOf shape source members).sound = .ok () ↔ Once shape.fields members := by
    rw [rowOf, Row.sound_eq_ok, Once, Once, Draft.keys_ofJsonMembers]
    rw [Draft.ofJsonMembers_eq_map]
    exact List.forall_mem_map.mpr fun member _ => Draft.breakInside_ofJson member.2
  rw [← sound, ← Placed.seqRight_eq_ok, ← Placed.outcome_eq_ok]
  rfl

/-! ### Values in their places -/

/-- With distinct keys, a record is read if its fields can be built. -/
theorem record_of_distinct {shape : Shape} {build : Row → Placed α}
    (distinct : (members.map Prod.fst).Nodup)
    (built : build (rowOf shape source members) = .ok a) :
    Reader.record shape build source (.ofJson (.object members)) = .ok a :=
  record_eq_ok.mpr ⟨fun key _ => List.nodup_iff_count.mp distinct key, built⟩

theorem required_of_lookup {shape : Shape} {key : String} {read : Reader α} {j : Json}
    (found : members.lookup key = some j) (reads : read source (.ofJson j) = .ok a) :
    (rowOf shape source members).required key read = .ok a := by
  refine rowOf_required.mpr ?_
  rw [found]
  exact reads

theorem optional_of_lookup {shape : Shape} {key : String} {read : Reader α} {default : α} {j : Json}
    (found : members.lookup key = some j) (reads : read source (.ofJson j) = .ok a) :
    (rowOf shape source members).optional key read default = .ok a := by
  refine rowOf_optional.mpr ?_
  rw [found]
  exact reads

theorem word_ofNat {n : Nat} (fits : n < Nat.pow 2 32) (source : Source) :
    Reader.word source (.ofJson (.ofNat n)) = .ok n := by
  have inside : (0 ≤ (n : Int) && (n : Int).toNat < Nat.pow 2 32) = true := by
    simpa using fits
  exact if_pos inside

theorem list_nil (read : Reader α) (source : Source) :
    Reader.list read source (.ofJson (.array [])) = .ok [] := rfl

/-- A list is read if its first item and the rest are. -/
theorem list_cons_eq_ok {read : Reader α} {j : Json} {rest : List Json} {list : List α} :
    Reader.list read source (.ofJson (.array (j :: rest))) = .ok list ↔
      ∃ first others, read source (.ofJson j) = .ok first ∧
        Reader.list read source (.ofJson (.array rest)) = .ok others ∧ list = first :: others := by
  have listed (drafts : List Draft) (list : List α) :
      Reader.list read source (.array drafts none) = .ok list ↔
        drafts.mapM (read source) = .ok list := by
    rw [Reader.list]
    cases drafts.mapM (read source) <;> exact Iff.rfl
  rw [Draft.ofJson, Draft.ofJson, Draft.ofJsonItems, listed, List.mapM_cons, bind_eq_ok]
  refine exists_congr fun first => ?_
  simp only [bind_eq_ok, listed]
  constructor
  · rintro ⟨here, others, later, done⟩
    exact ⟨others, here, later, (Except.ok.inj done).symm⟩
  · rintro ⟨others, here, later, rfl⟩
    exact ⟨here, others, later, rfl⟩

/-- A list of values that were written one by one is read one by one. -/
theorem list_map {read : Reader α} {write : α → Json} {list : List α}
    (each : ∀ a ∈ list, read source (.ofJson (write a)) = .ok a) :
    Reader.list read source (.ofJson (.array (list.map write))) = .ok list := by
  induction list with
  | nil => exact list_nil read source
  | cons a rest ih =>
    obtain ⟨first, others⟩ := List.forall_mem_cons.mp each
    exact list_cons_eq_ok.mpr ⟨a, rest, first, ih others, rfl⟩

theorem list_strings (texts : List String) (source : Source) :
    Reader.list .string source (.ofJson (.strings texts)) = .ok texts :=
  list_map fun _ _ => rfl

/-! ### Variants -/

def untagged (members : List (String × Json)) : List (String × Json) :=
  members.filter (·.1 != "type")

/-- A variant is sound if its tag is given once at most. -/
theorem soundVariant_eq_ok (seen : Bool) (place : Nat) {members : List (String × Draft)}
    (sound : ∀ member ∈ members, member.2.fault? = none) :
    Reader.soundVariant seen place members none = .ok () ↔
      (members.map Prod.fst).count "type" + seen.toNat ≤ 1 := by
  induction members generalizing place seen with
  | nil => cases seen <;> exact ⟨fun _ => by decide, fun _ => rfl⟩
  | cons member rest ih =>
    obtain ⟨name, draft⟩ := member
    obtain ⟨first, others⟩ := List.forall_mem_cons.mp sound
    rw [Reader.soundVariant, List.map_cons]
    by_cases tag : name = "type"
    · rw [if_pos tag, tag, List.count_cons_self]
      cases seen with
      | true =>
        refine ⟨(nomatch ·), fun bounded => ?_⟩
        rw [Bool.toNat_true] at bounded
        omega
      | false =>
        refine (ih true _ others).trans ?_
        rw [Bool.toNat_true, Bool.toNat_false, Nat.add_zero]
    · rw [if_neg tag, first, List.count_cons_of_ne tag]
      exact ih seen _ others

theorem ofJsonMembers_untagged (members : List (String × Json)) :
    (Draft.ofJsonMembers members).filter (·.1 != "type") =
      Draft.ofJsonMembers (untagged members) := by
  rw [untagged, Draft.ofJsonMembers_eq_map, Draft.ofJsonMembers_eq_map, List.filter_map]
  rfl

/-- A chosen reader is one of those to choose from. -/
theorem mem_of_chosen {variants : List (String × Reader α)} {tag : Draft} {read : Reader α}
    (chosen : Reader.chosen variants source tag = .ok read) : ∃ name, (name, read) ∈ variants := by
  unfold Reader.chosen at chosen
  split at chosen
  · rename_i name
    split at chosen
    · rename_i found
      cases chosen
      obtain ⟨before, after, rfl, _⟩ := List.lookup_eq_some_iff.mp found
      exact ⟨name, List.mem_append_right before List.mem_cons_self⟩
    · cases chosen
  · split at chosen
    · split at chosen
      · rename_i name _ found
        cases chosen
        exact ⟨name, List.mem_of_getElem? found⟩
      · cases chosen
    · cases chosen
  · cases chosen

/-- A variant is told by its one tag and read from what else there is. -/
theorem tagged_eq_ok {title : String} {variants : List (String × Reader α)} :
    Reader.tagged title variants source (.ofJson (.object members)) = .ok a ↔
      Once ["type"] members ∧ ∃ tag read, members.lookup "type" = some tag ∧
        Reader.chosen variants source (.ofJson tag) = .ok read ∧
        read .variant (.ofJson (.object (untagged members))) = .ok a := by
  have sound : Reader.soundVariant false 0 (Draft.ofJsonMembers members) none = .ok () ↔
      Once ["type"] members := by
    rw [soundVariant_eq_ok, Once, List.forall_mem_singleton, Draft.keys_ofJsonMembers]
    · rfl
    · rw [Draft.ofJsonMembers_eq_map]
      exact List.forall_mem_map.mpr fun member _ => Draft.fault?_ofJson member.2
  have found := map_snd_firstWithKey? "type" (Draft.ofJsonMembers members)
  rw [Draft.lookup_ofJsonMembers] at found
  rw [Draft.ofJson, Reader.tagged, bind_eq_ok]
  simp only [Placed.outcome_eq_ok, Placed.seqRight_eq_ok, sound, ofJsonMembers_untagged]
  cases first : firstWithKey? "type" (Draft.ofJsonMembers members) with
  | none =>
    constructor
    · rintro ⟨read, ⟨_, chosen⟩, _⟩
      cases chosen
    · rintro ⟨_, tag, _, here, _⟩
      rw [first, here] at found
      cases found
  | some entry =>
    obtain ⟨place, draft⟩ := entry
    rw [first] at found
    obtain ⟨tag, here, rfl⟩ := Option.map_eq_some_iff.mp found.symm
    simp only [Placed.ofExcept_eq_ok]
    constructor
    · rintro ⟨read, ⟨once, chosen⟩, done⟩
      exact ⟨once, tag, read, here, chosen, done⟩
    · rintro ⟨once, tag', read, here', chosen, done⟩
      cases here.symm.trans here'
      exact ⟨read, ⟨once, chosen⟩, done⟩

theorem untagged_eq_self (noTag : "type" ∉ members.map Prod.fst) : untagged members = members := by
  refine List.filter_eq_self.mpr fun member inside => bne_iff_ne.mpr fun same => noTag ?_
  exact same ▸ List.mem_map_of_mem inside

/-- A node with its tag in front is read like the node without. -/
theorem tagged_cons_eq_ok {title name : String} {variants : List (String × Reader α)}
    (noTag : "type" ∉ members.map Prod.fst) :
    Reader.tagged title variants source (.ofJson (.object (("type", .string name) :: members))) =
        .ok a ↔
      ∃ read, variants.lookup name = some read ∧
        read .variant (.ofJson (.object members)) = .ok a := by
  have once : Once ["type"] (("type", Json.string name) :: members) := by
    refine List.forall_mem_singleton.mpr (Nat.le_of_eq ?_)
    rw [List.map_cons, List.count_cons_self, List.count_eq_zero.mpr noTag]
  have rest : untagged (("type", Json.string name) :: members) = members :=
    untagged_eq_self noTag
  have chosen (read : Reader α) : Reader.chosen variants source (.string name) = .ok read ↔
      variants.lookup name = some read := by
    rw [Reader.chosen]
    cases variants.lookup name with
    | none => exact ⟨(nomatch ·), (nomatch ·)⟩
    | some found => simp
  rw [tagged_eq_ok, rest]
  constructor
  · rintro ⟨_, tag, read, found, choice, done⟩
    cases found
    exact ⟨read, (chosen read).mp choice, done⟩
  · rintro ⟨read, found, done⟩
    exact ⟨once, _, read, rfl, (chosen read).mpr found, done⟩

end Records

/-! ### The order of members -/

/-- The order of members does not matter for keys that are given once. -/
theorem Once.perm {keys : List String} {members members' : List (String × β)}
    (once : Once keys members) (perm : members.Perm members') : Once keys members' :=
  fun key listed => (perm.map Prod.fst).count_eq key ▸ once key listed

/-- A key that is given once is found in any order. -/
theorem lookup_of_perm {members members' : List (String × β)} {key : String}
    (perm : members.Perm members') (once : (members.map Prod.fst).count key ≤ 1) :
    members.lookup key = members'.lookup key := by
  induction perm with
  | nil => rfl
  | cons member _ ih =>
    obtain ⟨name, value⟩ := member
    rw [List.map_cons] at once
    rw [List.lookup_cons, List.lookup_cons]
    cases key == name with
    | true => rfl
    | false => exact ih (Nat.le_trans List.count_le_count_cons once)
  | swap first second rest =>
    obtain ⟨name, value⟩ := first
    obtain ⟨name', value'⟩ := second
    simp only [List.lookup_cons]
    by_cases here : key = name
    · by_cases there : key = name'
      · subst here there
        simp only [List.map_cons, List.count_cons_self] at once
        omega
      · rw [beq_eq_false_iff_ne.mpr there]
    · rw [beq_eq_false_iff_ne.mpr here]
  | trans left _ ih ih' =>
    rw [ih once]
    exact ih' ((left.map Prod.fst).count_eq key ▸ once)

end TemplateCompiler.Json
