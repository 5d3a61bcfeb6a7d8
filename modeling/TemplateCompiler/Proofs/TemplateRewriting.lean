import Mathlib.Data.List.Nodup
import TemplateCompiler.Proofs.TemplateSchema

/-!
# Liberties with the JSON of a template

The JSON of a template leaves some freedom. Members of an object may stand in any order, members
that no field asks for are passed over, and a field may be left out where it holds its default.
`Rewrites` lists the steps that are allowed, and no reader notices them.
-/

namespace TemplateCompiler.Template.Schema

open Json (Reader Row Placed Source Draft Shape Gives Once rowOf)

/-! ### Liberties -/

/-- The liberties that may be taken with what stands in a slot, one after the other and at any
depth. Since members may change places, those that touch a single member are stated for the
first. -/
inductive Rewrites : Slot → Json → Json → Prop where
  | refl {slot : Slot} (j : Json) : Rewrites slot j j
  | trans {slot : Slot} {i j k : Json} (first : Rewrites slot i j) (second : Rewrites slot j k) :
    Rewrites slot i k
  /-- In the first item of a list. -/
  | head {item : Slot} {j k : Json} (rest : List Json) (inside : Rewrites item j k) :
    Rewrites (.list item) (.array (j :: rest)) (.array (k :: rest))
  /-- In the items after the first. -/
  | tail {item : Slot} {js ks : List Json} (j : Json)
    (inside : Rewrites (.list item) (.array js) (.array ks)) :
    Rewrites (.list item) (.array (j :: js)) (.array (j :: ks))
  /-- In a node that might be missing. -/
  | present {kind : Kind} {members members' : List (String × Json)}
    (inside : Rewrites (.node kind) (.object members) (.object members')) :
    Rewrites (.orNull kind) (.object members) (.object members')
  /-- In a node with a tag. -/
  | tagged {group : Group} {name : String} {kind : Kind} {members members' : List (String × Json)}
    (listed : group.kinds.lookup name = some kind)
    (inside : Rewrites (.node kind) (.object members) (.object members')) :
    Rewrites (.tagged group) (.object (("type", .string name) :: members))
      (.object (("type", .string name) :: members'))
  /-- In the value of a field. -/
  | field {kind : Kind} {f : Field} {j k : Json} (rest : List (String × Json))
    (listed : f ∈ kind.fields) (inside : Rewrites f.slot j k) :
    Rewrites (.node kind) (.object ((f.key, j) :: rest)) (.object ((f.key, k) :: rest))
  /-- The members of a node in another order. -/
  | permute {kind : Kind} {members members' : List (String × Json)}
    (perm : members.Perm members') : Rewrites (.node kind) (.object members) (.object members')
  /-- The members of a node with a tag in another order, the tag being one of them. -/
  | permuteTagged {group : Group} {members members' : List (String × Json)}
    (perm : members.Perm members') : Rewrites (.tagged group) (.object members) (.object members')
  /-- A member that is no field of the node. -/
  | add {kind : Kind} {key : String} (value : Json) (members : List (String × Json))
    (unused : key ∉ kind.keys) (noTag : key ≠ "type") :
    Rewrites (.node kind) (.object members) (.object ((key, value) :: members))
  /-- Without a field that holds its default, however that is written. -/
  | drop {kind : Kind} {f : Field} {default j : Json} (rest : List (String × Json))
    (listed : f ∈ kind.fields) (optional : f.default = some default)
    (unset : Rewrites f.slot default j) :
    Rewrites (.node kind) (.object ((f.key, j) :: rest)) (.object rest)

namespace Rewrites

instance {slot : Slot} : Trans (Rewrites slot) (Rewrites slot) (Rewrites slot) := ⟨.trans⟩

variable {kind : Kind} {f : Field}

/-- Any member may be the one whose value is rewritten. -/
theorem field_middle {j k : Json} (before rest : List (String × Json)) (listed : f ∈ kind.fields)
    (inside : Rewrites f.slot j k) :
    Rewrites (.node kind) (.object (before ++ (f.key, j) :: rest))
      (.object (before ++ (f.key, k) :: rest)) := by
  have front := Rewrites.field (before ++ rest) listed inside
  exact .trans (.permute List.perm_middle) (.trans front (.permute List.perm_middle.symm))

/-- A member may be added anywhere. -/
theorem add_middle {key : String} (value : Json) (before rest : List (String × Json))
    (unused : key ∉ kind.keys) (noTag : key ≠ "type") :
    Rewrites (.node kind) (.object (before ++ rest))
      (.object (before ++ (key, value) :: rest)) := by
  have front := Rewrites.add value (before ++ rest) unused noTag
  exact .trans front (.permute List.perm_middle.symm)

/-- A field may be left out wherever it stands. -/
theorem drop_middle {default j : Json} (before rest : List (String × Json))
    (listed : f ∈ kind.fields) (optional : f.default = some default)
    (unset : Rewrites f.slot default j) :
    Rewrites (.node kind) (.object (before ++ (f.key, j) :: rest)) (.object (before ++ rest)) := by
  have front := Rewrites.drop (before ++ rest) listed optional unset
  exact .trans (.permute List.perm_middle) front

end Rewrites

/-! ### What readers notice -/

/-- What stands in a slot is read alike in two forms. -/
def Unnoticed (slot : Slot) (j k : Json) : Prop :=
  ∀ source value, slot.reader source (.ofJson j) = .ok value →
    slot.reader source (.ofJson k) = .ok value

/-- What becomes of a field: it stays, it is written in another form, or it is left out with its
default in it. -/
inductive Kept (f : Field) : Option Json → Option Json → Prop where
  | same (found : Option Json) : Kept f found found
  | inside {j k : Json} (unnoticed : Unnoticed f.slot j k) : Kept f (some j) (some k)
  | dropped {default j : Json} (optional : f.default = some default)
    (unnoticed : Unnoticed f.slot default j) : Kept f (some j) none

section Fields

variable {key : String} {slot : Slot} {found found' : Option Json} {source : Source}
  {value : slot.Value}

theorem Kept.gives_required (kept : Kept (.required key slot) found found')
    (gives : Gives slot.reader none source (found.map .ofJson) value) :
    Gives slot.reader none source (found'.map .ofJson) value := by
  cases kept with
  | same => exact gives
  | inside unnoticed => exact unnoticed source value gives
  | dropped optional => cases optional

theorem Kept.gives_optional {default : Json} {unset : slot.Value}
    (reads : ∀ source, slot.reader source (.ofJson default) = .ok unset)
    (kept : Kept ⟨key, slot, some default⟩ found found')
    (gives : Gives slot.reader (some unset) source (found.map .ofJson) value) :
    Gives slot.reader (some unset) source (found'.map .ofJson) value := by
  cases kept with
  | same => exact gives
  | inside unnoticed => exact unnoticed source value gives
  | dropped optional unnoticed =>
    cases optional
    -- the form that was left out is read both as the value and as the default
    have unset_ := unnoticed source unset (reads source)
    have same : unset = value := Except.ok.inj (unset_.symm.trans gives)
    exact congrArg some same

end Fields

section Nodes

variable {members members' : List (String × Json)}

/-- A node is built alike from members that keep every field of it. -/
theorem Builds.kept {α : Type} {fields : List Field} {build : Row → Placed α}
    (builds : Builds fields build)
    (each : ∀ f ∈ fields, Kept f (members.lookup f.key) (members'.lookup f.key)) {shape : Shape}
    {source : Source} {a : α} (built : build (rowOf shape source members) = .ok a) :
    build (rowOf shape source members') = .ok a := by
  induction builds with
  | pure => exact built
  | required before ih =>
    obtain ⟨here, others⟩ := List.forall_mem_cons.mp each
    obtain ⟨make, value, first, read, rfl⟩ := Placed.seq_eq_ok.mp built
    have gives := here.gives_required (Json.rowOf_required.mp read)
    exact Placed.seq_eq_ok.mpr ⟨make, value, ih others first, Json.rowOf_required.mpr gives, rfl⟩
  | optional before reads ih =>
    obtain ⟨here, others⟩ := List.forall_mem_cons.mp each
    obtain ⟨make, value, first, read, rfl⟩ := Placed.seq_eq_ok.mp built
    have gives := here.gives_optional reads (Json.rowOf_optional.mp read)
    exact Placed.seq_eq_ok.mpr ⟨make, value, ih others first, Json.rowOf_optional.mpr gives, rfl⟩

/-- A node is read alike if its fields stay unique and nothing is noticed in any of them. -/
theorem unnoticed_node {kind : Kind} (once : Once kind.keys members → Once kind.keys members')
    (each : Once kind.keys members → ∀ f ∈ kind.fields,
      Kept f (members.lookup f.key) (members'.lookup f.key)) :
    Unnoticed (.node kind) (.object members) (.object members') := by
  intro source value read
  obtain ⟨shape, build, record, keys, builds⟩ := kind.isRecord
  have known : shape.fields = kind.keys := keys
  rw [Slot.reader, record] at read ⊢
  obtain ⟨unique, built⟩ := Json.record_eq_ok.mp read
  rw [known] at unique
  refine Json.record_eq_ok.mpr ⟨known ▸ once unique, builds.kept (fun f listed => ?_) built⟩
  exact each unique f (List.mem_reverse.mp listed)

/-- The order of members does not matter. -/
theorem unnoticed_permute {kind : Kind} (perm : members.Perm members') :
    Unnoticed (.node kind) (.object members) (.object members') := by
  refine unnoticed_node (fun once => once.perm perm) fun once f listed => ?_
  have unique := once f.key (List.mem_map_of_mem listed)
  rw [Json.lookup_of_perm perm unique]
  exact .same _

/-- Members that a node does not know do not matter. -/
theorem unnoticed_add {kind : Kind} {key : String} (value : Json) (unused : key ∉ kind.keys) :
    Unnoticed (.node kind) (.object members) (.object ((key, value) :: members)) := by
  have other (known : String) (listed : known ∈ kind.keys) : known ≠ key := by
    rintro rfl
    exact unused listed
  refine unnoticed_node (fun once known listed => ?_) fun _ f listed => ?_
  · have unique := once known listed
    rwa [List.map_cons, List.count_cons_of_ne (other known listed).symm]
  · rw [lookup_cons_of_ne (other f.key (List.mem_map_of_mem listed))]
    exact .same _

/-- No two fields of a node have the same key. -/
theorem Kind.nodup_keys (kind : Kind) : kind.keys.Nodup := by
  cases kind <;> decide

theorem Kind.field_eq {kind : Kind} {f g : Field} (first : f ∈ kind.fields)
    (second : g ∈ kind.fields) (same : f.key = g.key) : f = g :=
  List.inj_on_of_nodup_map kind.nodup_keys first second same

/-- What is not noticed in a field is not noticed in the node. -/
theorem unnoticed_field {kind : Kind} {f : Field} {j k : Json} (rest : List (String × Json))
    (listed : f ∈ kind.fields) (inside : Unnoticed f.slot j k) :
    Unnoticed (.node kind) (.object ((f.key, j) :: rest)) (.object ((f.key, k) :: rest)) := by
  refine unnoticed_node (fun once => once) fun _ g listed' => ?_
  by_cases same : g.key = f.key
  · obtain rfl := Kind.field_eq listed' listed same
    rw [List.lookup_cons_self, List.lookup_cons_self]
    exact .inside inside
  · rw [lookup_cons_of_ne same, lookup_cons_of_ne same]
    exact .same _

theorem lookup_eq_none {key : String} {rest : List (String × Json)}
    (absent : (rest.map Prod.fst).count key = 0) : rest.lookup key = none := by
  refine List.lookup_eq_none_iff.mpr fun member inside => bne_iff_ne.mpr ?_
  rintro rfl
  exact List.count_eq_zero.mp absent (List.mem_map_of_mem inside)

/-- A field that holds its default can be left out. -/
theorem unnoticed_drop {kind : Kind} {f : Field} {default j : Json} (rest : List (String × Json))
    (listed : f ∈ kind.fields) (optional : f.default = some default)
    (unset : Unnoticed f.slot default j) :
    Unnoticed (.node kind) (.object ((f.key, j) :: rest)) (.object rest) := by
  refine unnoticed_node (fun once key known => ?_) fun once g listed' => ?_
  · have unique := once key known
    rw [List.map_cons] at unique
    exact Nat.le_trans List.count_le_count_cons unique
  · by_cases same : g.key = f.key
    · obtain rfl := Kind.field_eq listed' listed same
      have unique := once g.key (List.mem_map_of_mem listed)
      rw [List.map_cons, List.count_cons_self] at unique
      rw [List.lookup_cons_self, lookup_eq_none (by omega)]
      exact .dropped optional unset
    · rw [lookup_cons_of_ne same]
      exact .same _

end Nodes

/-! ### Lists and missing nodes -/

theorem unnoticed_head {item : Slot} {j k : Json} (rest : List Json)
    (inside : Unnoticed item j k) :
    Unnoticed (.list item) (.array (j :: rest)) (.array (k :: rest)) := by
  intro source list read
  obtain ⟨first, others, here, later, rfl⟩ := Json.list_cons_eq_ok.mp read
  exact Json.list_cons_eq_ok.mpr ⟨first, others, inside source first here, later, rfl⟩

theorem unnoticed_tail {item : Slot} {js ks : List Json} (j : Json)
    (inside : Unnoticed (.list item) (.array js) (.array ks)) :
    Unnoticed (.list item) (.array (j :: js)) (.array (j :: ks)) := by
  intro source list read
  obtain ⟨first, others, here, later, rfl⟩ := Json.list_cons_eq_ok.mp read
  exact Json.list_cons_eq_ok.mpr ⟨first, others, here, inside source others later, rfl⟩

theorem unnoticed_present {kind : Kind} {members members' : List (String × Json)}
    (inside : Unnoticed (.node kind) (.object members) (.object members')) :
    Unnoticed (.orNull kind) (.object members) (.object members') := by
  intro source value read
  obtain ⟨node, here, same⟩ := bind_eq_ok.mp read
  exact bind_eq_ok.mpr ⟨node, inside source node here, same⟩

/-! ### Nodes with a tag -/

/-- An object without a member `type`. -/
def NoTag : Json → Prop
  | .object members => "type" ∉ members.map Prod.fst
  | _ => True

/-- No liberty gives a node a tag. -/
theorem Rewrites.noTag {slot : Slot} {j k : Json} (rewrites : Rewrites slot j k) {kind : Kind}
    (node : slot = .node kind) (noTag : NoTag j) : NoTag k := by
  induction rewrites with
  | refl => exact noTag
  | trans _ _ ih ih' => exact ih' node (ih node noTag)
  | head | tail | present | tagged | permuteTagged => cases node
  | field => exact noTag
  | permute perm => exact fun inside => noTag ((perm.map Prod.fst).mem_iff.mpr inside)
  | add value members unused other =>
    exact List.not_mem_cons_of_ne_of_not_mem (Ne.symm other) noTag
  | drop rest => exact List.not_mem_of_not_mem_cons noTag

theorem unnoticed_variant {group : Group} {name : String} {kind : Kind}
    {read : Reader group.Value} (variant : IsVariant group (name, kind) (name, read)) {j k : Json}
    (inside : Unnoticed (.node kind) j k) {source : Source} {value : group.Value}
    (done : read source (.ofJson j) = .ok value) : read source (.ofJson k) = .ok value := by
  obtain ⟨_, make, rfl⟩ := variant
  obtain ⟨node, here, same⟩ := map_eq_ok.mp done
  exact map_eq_ok.mpr ⟨node, inside source node here, same⟩

/-- What is not noticed in a node is not noticed in a choice of nodes. -/
theorem unnoticed_tagged {group : Group} {name : String} {kind : Kind}
    {members members' : List (String × Json)} (listed : group.kinds.lookup name = some kind)
    (kept : NoTag (.object members) → NoTag (.object members'))
    (inside : Unnoticed (.node kind) (.object members) (.object members')) :
    Unnoticed (.tagged group) (.object (("type", .string name) :: members))
      (.object (("type", .string name) :: members')) := by
  intro source value read
  obtain ⟨title, variants, tagged, each⟩ := group.isTagged
  rw [Slot.reader, tagged] at read ⊢
  -- the tag in front is the only one, since the node was read
  have once := (Json.tagged_eq_ok.mp read).1
  have noTag : "type" ∉ members.map Prod.fst := by
    have unique := once "type" List.mem_cons_self
    rw [List.map_cons, List.count_cons_self] at unique
    exact List.count_eq_zero.mp (by omega)
  obtain ⟨chosen, found, done⟩ := (Json.tagged_cons_eq_ok noTag).mp read
  obtain ⟨kind', listed', variant⟩ := variant_of_lookup each found
  cases listed.symm.trans listed'
  exact (Json.tagged_cons_eq_ok (kept noTag)).mpr
    ⟨chosen, found, unnoticed_variant variant inside done⟩

theorem unnoticed_permuteTagged {group : Group} {members members' : List (String × Json)}
    (perm : members.Perm members') :
    Unnoticed (.tagged group) (.object members) (.object members') := by
  intro source value read
  obtain ⟨title, variants, tagged, each⟩ := group.isTagged
  rw [Slot.reader, tagged] at read ⊢
  obtain ⟨once, tag, chosen, found, choice, done⟩ := Json.tagged_eq_ok.mp read
  -- the tag may be a name or an index; it is enough that it chooses one of the variants
  obtain ⟨name, listed⟩ := Json.mem_of_chosen choice
  obtain ⟨kind, variant⟩ := variant_of_mem each listed
  have unique := once "type" List.mem_cons_self
  rw [Json.lookup_of_perm perm unique] at found
  have rest : (Json.untagged members).Perm (Json.untagged members') := perm.filter _
  exact Json.tagged_eq_ok.mpr ⟨once.perm perm, tag, chosen, found, choice,
    unnoticed_variant variant (unnoticed_permute rest) done⟩

/-- No reader notices the liberties. -/
theorem Rewrites.unnoticed {slot : Slot} {j k : Json} (rewrites : Rewrites slot j k) :
    Unnoticed slot j k := by
  induction rewrites with
  | refl => exact fun _ _ read => read
  | trans _ _ ih ih' => exact fun source value read => ih' source value (ih source value read)
  | head rest _ ih => exact unnoticed_head rest ih
  | tail j _ ih => exact unnoticed_tail j ih
  | present _ ih => exact unnoticed_present ih
  | tagged listed inside ih => exact unnoticed_tagged listed (inside.noTag rfl) ih
  | field rest listed _ ih => exact unnoticed_field rest listed ih
  | permute perm => exact unnoticed_permute perm
  | permuteTagged perm => exact unnoticed_permuteTagged perm
  | add value _ unused _ => exact unnoticed_add value unused
  | drop rest listed optional _ ih => exact unnoticed_drop rest listed optional ih

end TemplateCompiler.Template.Schema
