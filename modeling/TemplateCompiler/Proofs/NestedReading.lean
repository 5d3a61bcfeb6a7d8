import Mathlib.Data.List.Forall2
import TemplateCompiler.Template.Reader

/-!
# Nodes inside nodes

Nested nodes are read with a bound on their depth, and the bound is the depth of the draft itself.
As every reader looks at parts of smaller depth only, the bound never counts: a node is read as its
kind says, with the same reader for the nodes inside.
-/

namespace TemplateCompiler

namespace Json

variable {α β : Type}

/-- Two readers that agree on all drafts up to some depth. -/
def Agree (depth : Nat) (read read' : Reader α) : Prop :=
  ∀ source draft, draft.depth ≤ depth → read source draft = read' source draft

namespace Draft

theorem depth_le_of_mem_items {items : List Draft} {item : Draft} (inside : item ∈ items) :
    item.depth ≤ depthOfItems items := by
  induction items with
  | nil => cases inside
  | cons first rest ih =>
    rw [depthOfItems]
    rcases List.mem_cons.mp inside with rfl | later
    · exact Nat.le_max_left _ _
    · exact Nat.le_trans (ih later) (Nat.le_max_right _ _)

theorem depth_le_of_mem_members {members : List (String × Draft)} {member : String × Draft}
    (inside : member ∈ members) : member.2.depth ≤ depthOfMembers members := by
  induction members with
  | nil => cases inside
  | cons first rest ih =>
    rw [depthOfMembers]
    rcases List.mem_cons.mp inside with rfl | later
    · exact Nat.le_max_left _ _
    · exact Nat.le_trans (ih later) (Nat.le_max_right _ _)

/-- Leaving members out does not make an object deeper. -/
theorem depthOfMembers_filter_le (p : String × Draft → Bool) (members : List (String × Draft)) :
    depthOfMembers (members.filter p) ≤ depthOfMembers members := by
  induction members with
  | nil => exact Nat.le_refl _
  | cons first rest ih =>
    rw [List.filter_cons]
    split
    · rw [depthOfMembers, depthOfMembers]
      omega
    · rw [depthOfMembers]
      omega

end Draft

theorem mapM_congr {f g : α → Except Complaint β} {list : List α}
    (same : ∀ a ∈ list, f a = g a) : list.mapM f = list.mapM g := by
  induction list with
  | nil => rfl
  | cons a rest ih =>
    obtain ⟨first, others⟩ := List.forall_mem_cons.mp same
    rw [List.mapM_cons, List.mapM_cons, first, ih others]

theorem Agree.mono {depth depth' : Nat} {read read' : Reader α} (agree : Agree depth read read')
    (lower : depth' ≤ depth) : Agree depth' read read' :=
  fun source draft bounded => agree source draft (Nat.le_trans bounded lower)

theorem Agree.refl (depth : Nat) (read : Reader α) : Agree depth read read :=
  fun _ _ _ => rfl

/-- Readers that agree on items agree on lists. -/
theorem Agree.list {depth : Nat} {read read' : Reader α} (agree : Agree depth read read') :
    Agree depth (.list read) (.list read') := by
  intro source draft bounded
  cases draft with
  | array items stop =>
    rw [Reader.list, Reader.list, mapM_congr fun item inside => agree source item ?_]
    have inner := Draft.depth_le_of_mem_items inside
    rw [Draft.depth] at bounded
    omega
  | _ => rfl

theorem Agree.orNull {depth : Nat} {read read' : Reader α} (agree : Agree depth read read') :
    Agree depth (.orNull read) (.orNull read') := by
  intro source draft bounded
  cases draft with
  | null => rfl
  | _ => rw [Reader.orNull, Reader.orNull, agree source _ bounded] <;> nofun

theorem Agree.map {depth : Nat} {read read' : Reader α} (f : α → β)
    (agree : Agree depth read read') :
    Agree depth (fun source draft => f <$> read source draft)
      fun source draft => f <$> read' source draft :=
  fun source draft bounded => congrArg (f <$> ·) (agree source draft bounded)

/-! ### Records -/

/-- A row with parts of limited depth. -/
def Row.Within (depth : Nat) (row : Row) : Prop :=
  match row.entries with
  | .named members _ => Draft.depthOfMembers members ≤ depth
  | .listed items _ => Draft.depthOfItems items ≤ depth

theorem mem_of_firstWithKey? {key : String} {members : List (String × Draft)} {place : Nat}
    {draft : Draft} (found : firstWithKey? key members = some (place, draft)) :
    ∃ member ∈ members, member.2 = draft := by
  induction members generalizing place with
  | nil => cases found
  | cons member rest ih =>
    obtain ⟨name, value⟩ := member
    rw [firstWithKey?] at found
    split at found
    · cases found
      exact ⟨_, List.mem_cons_self, rfl⟩
    · obtain ⟨⟨later, draft'⟩, there, same⟩ := Option.map_eq_some_iff.mp found
      cases same
      obtain ⟨member, inside, value⟩ := ih there
      exact ⟨member, List.mem_cons_of_mem _ inside, value⟩

/-- A field is read alike by readers that agree as deep as the row goes. -/
theorem Row.field_congr {depth : Nat} {row : Row} {read read' : Reader α}
    (agree : Agree depth read read') (within : row.Within depth) (key : String)
    (absent : Placed α) : row.field key read absent = row.field key read' absent := by
  obtain ⟨shape, source, entries⟩ := row
  cases entries with
  | named members stop =>
    simp only [field]
    cases found : firstWithKey? key members with
    | none => rfl
    | some entry =>
      obtain ⟨place, draft⟩ := entry
      obtain ⟨member, inside, rfl⟩ := mem_of_firstWithKey? found
      have bounded := Draft.depth_le_of_mem_members inside
      exact congrArg (Placed.ofExcept place) (agree source _ (Nat.le_trans bounded within))
  | listed items stop =>
    simp only [field]
    cases found : items[shape.fields.idxOf key]? with
    | none => rfl
    | some draft =>
      have bounded := Draft.depth_le_of_mem_items (List.mem_of_getElem? found)
      exact congrArg (Placed.ofExcept _) (agree source _ (Nat.le_trans bounded within))

theorem Row.required_congr {depth : Nat} {row : Row} {read read' : Reader α}
    (agree : Agree depth read read') (within : row.Within depth) (key : String) :
    row.required key read = row.required key read' :=
  field_congr agree within key _

theorem Row.optional_congr {depth : Nat} {row : Row} {read read' : Reader α}
    (agree : Agree depth read read') (within : row.Within depth) (key : String) (default : α) :
    row.optional key read default = row.optional key read' default :=
  field_congr agree within key _

/-- A record is one level above its fields. -/
theorem agree_record {depth : Nat} {shape : Shape} {build build' : Row → Placed α}
    (same : ∀ row : Row, row.Within depth → build row = build' row) :
    Agree (depth + 1) (.record shape build) (.record shape build') := by
  intro source draft bounded
  cases draft with
  | array items stop =>
    have within : Row.Within depth ⟨shape, source, .listed items stop⟩ :=
      Nat.le_of_succ_le_succ bounded
    exact congrArg (fun built => Placed.outcome (Row.sound _ *> built)) (same _ within)
  | object members stop =>
    have within : Row.Within depth ⟨shape, source, .named members stop⟩ :=
      Nat.le_of_succ_le_succ bounded
    exact congrArg (fun built => Placed.outcome (Row.sound _ *> built)) (same _ within)
  | _ => rfl

/-! ### Variants -/

def AgreeNamed (depth : Nat) (variant variant' : String × Reader α) : Prop :=
  variant.1 = variant'.1 ∧ Agree depth variant.2 variant'.2

/-- Readers that were looked up in two ways: there are none, or two that agree. -/
def AgreeFound (depth : Nat) : Option (Reader α) → Option (Reader α) → Prop
  | none, none => True
  | some read, some read' => Agree depth read read'
  | _, _ => False

variable {depth : Nat} {variants variants' : List (String × Reader α)}

/-- The variants of one name agree. -/
theorem agree_lookup (each : List.Forall₂ (AgreeNamed depth) variants variants') (name : String) :
    AgreeFound depth (variants.lookup name) (variants'.lookup name) := by
  induction each with
  | nil => trivial
  | @cons variant variant' rest rest' agree _ ih =>
    obtain ⟨key, read⟩ := variant
    obtain ⟨key', read'⟩ := variant'
    obtain ⟨rfl, agree⟩ := agree
    rw [List.lookup_cons, List.lookup_cons]
    cases name == key with
    | true => exact agree
    | false => exact ih

theorem agree_getElem? (each : List.Forall₂ (AgreeNamed depth) variants variants') (n : Nat) :
    AgreeFound depth (variants[n]?.map Prod.snd) (variants'[n]?.map Prod.snd) := by
  induction each generalizing n with
  | nil => trivial
  | cons agree _ ih =>
    cases n with
    | zero => exact agree.2
    | succ n => exact ih n

theorem names_eq (each : List.Forall₂ (AgreeNamed depth) variants variants') :
    variants.map Prod.fst = variants'.map Prod.fst := by
  induction each with
  | nil => rfl
  | cons agree _ ih => rw [List.map_cons, List.map_cons, agree.1, ih]

/-- The same tag chooses readers that agree, or is refused alike. -/
inductive AgreeChosen (depth : Nat) :
    Except Complaint (Reader α) → Except Complaint (Reader α) → Prop
  | refused (complaint : Complaint) : AgreeChosen depth (.error complaint) (.error complaint)
  | chosen {read read' : Reader α} (agree : Agree depth read read') :
    AgreeChosen depth (.ok read) (.ok read')

/-- Whatever the tag, the variants that are chosen agree. -/
theorem agree_chosen (each : List.Forall₂ (AgreeNamed depth) variants variants')
    (source : Source) (tag : Draft) :
    AgreeChosen depth (Reader.chosen variants source tag) (Reader.chosen variants' source tag) := by
  cases tag with
  | string name =>
    have found := agree_lookup each name
    rw [Reader.chosen, Reader.chosen, names_eq each]
    cases here : variants.lookup name <;> cases there : variants'.lookup name <;>
      rw [here, there] at found
    · exact .refused _
    · exact found.elim
    · exact found.elim
    · exact .chosen found
  | number value =>
    cases value with
    | double d => exact .refused _
    | whole n =>
      have found := agree_getElem? each n.toNat
      rw [Reader.chosen, Reader.chosen, each.length_eq]
      split
      · cases here : variants[n.toNat]? <;> cases there : variants'[n.toNat]? <;>
          rw [here, there] at found
        · exact .refused _
        · exact found.elim
        · exact found.elim
        · exact .chosen found
      · exact .refused _
  | _ => exact .refused _

/-- Tagged unions agree if their variants do. -/
theorem Agree.tagged (title : String)
    (each : List.Forall₂ (AgreeNamed depth) variants variants') :
    Agree depth (.tagged title variants) (.tagged title variants') := by
  intro source draft bounded
  cases draft with
  | object members stop =>
    have inside : Draft.depth (.object (members.filter (·.1 != "type")) none) ≤ depth := by
      have fewer := Draft.depthOfMembers_filter_le (·.1 != "type") members
      rw [Draft.depth] at bounded ⊢
      omega
    rw [Reader.tagged, Reader.tagged]
    cases firstWithKey? "type" members with
    | none => rfl
    | some entry =>
      obtain ⟨place, tag⟩ := entry
      have chosen := agree_chosen each source tag
      simp only
      generalize Reader.chosen variants source tag = first at chosen ⊢
      generalize Reader.chosen variants' source tag = second at chosen ⊢
      cases chosen with
      | refused complaint => rfl
      | chosen agree =>
        cases Reader.soundVariant false 0 members stop with
        | error e => rfl
        | ok _ => exact agree _ _ inside
  | array items stop =>
    cases items with
    | nil => cases stop <;> rfl
    | cons tag rest =>
      have inside : Draft.depth (.array rest none) ≤ depth := by
        rw [Draft.depth, Draft.depthOfItems] at bounded
        rw [Draft.depth]
        omega
      have chosen := agree_chosen each source tag
      rw [Reader.tagged, Reader.tagged]
      generalize Reader.chosen variants source tag = first at chosen ⊢
      generalize Reader.chosen variants' source tag = second at chosen ⊢
      cases chosen with
      | refused complaint => rfl
      | chosen agree =>
        simp only [bind, Except.bind]
        cases (Draft.array rest stop).fault? with
        | some broken => rfl
        | none => exact agree _ _ inside
  | _ => rfl

/-! ### The bound on the depth -/

/-- A reader with a bound that each level lowers by one. If the level below is looked at only one
level deeper, the depth of the draft is bound enough, and the bound disappears. -/
theorem reader_eq_step {step : Reader α → Reader α} {expected : String} {bounded : Nat → Reader α}
    (zero : bounded 0 = .scalarOnly expected) (succ : ∀ n, bounded (n + 1) = step (bounded n))
    (scalar : ∀ read source draft, draft.depth = 0 →
      step read source draft = .error (draft.clash expected))
    (deeper : ∀ n read read', Agree n read read' → Agree (n + 1) (step read) (step read')) :
    (fun source draft => bounded draft.depth source draft) =
      step fun source draft => bounded draft.depth source draft := by
  have flat (n : Nat) (source : Source) (draft : Draft) (none : draft.depth = 0) :
      bounded n source draft = .error (draft.clash expected) := by
    cases n with
    | zero => rw [zero]; rfl
    | succ n => rw [succ, scalar _ _ _ none]
  have enough (n : Nat) : ∀ m source draft, draft.depth ≤ n → draft.depth ≤ m →
      bounded n source draft = bounded m source draft := by
    induction n with
    | zero =>
      intro m source draft fits _
      rw [flat 0 _ _ (Nat.le_zero.mp fits), flat m _ _ (Nat.le_zero.mp fits)]
    | succ n ih =>
      intro m source draft fits fits'
      cases depth : draft.depth with
      | zero => rw [flat _ _ _ depth, flat _ _ _ depth]
      | succ d =>
        obtain ⟨m, rfl⟩ : ∃ m', m = m' + 1 := ⟨m - 1, by omega⟩
        rw [succ, succ]
        refine deeper d _ _ (fun source draft within => ?_) source draft (Nat.le_of_eq depth)
        exact ih m source draft (by omega) (by omega)
  funext source draft
  cases depth : draft.depth with
  | zero => rw [flat _ _ _ depth, scalar _ _ _ depth]
  | succ d =>
    rw [succ]
    refine deeper d _ _ (fun source draft within => ?_) source draft (Nat.le_of_eq depth)
    exact enough d _ source draft within (Nat.le_refl _)

end Json

namespace Template

open Json

variable {depth : Nat}

/-! ### Expressions -/

section Expressions

variable {inner inner' : Reader Expression}

theorem agree_pair (agree : Agree depth inner inner') :
    Agree (depth + 1) (Pair.reader inner) (Pair.reader inner') :=
  agree_record fun row within => by rw [row.required_congr agree within "value"]

/-- One level down, named arguments are read alike. -/
theorem agree_hash (agree : Agree depth inner inner') :
    Agree (depth + 1) (Hash.reader inner) (Hash.reader inner') := by
  have pairs := ((agree_pair agree).mono (Nat.le_succ depth)).list
  exact agree_record fun row within => by rw [row.required_congr pairs within "pairs"]

theorem agree_call (agree : Agree depth inner inner') :
    Agree (depth + 1) (Expression.callReader inner) (Expression.callReader inner') := by
  have hash := (agree_hash agree).mono (Nat.le_succ depth)
  refine agree_record fun row within => ?_
  rw [row.optional_congr agree.list within "params", row.optional_congr hash within "hash"]

/-- An expression of any depth is one of its kinds, with expressions of any depth inside. -/
theorem Expression.reader_eq :
    Expression.reader = .tagged Expression.title (Expression.variants Expression.reader) := by
  refine reader_eq_step rfl (fun _ => rfl) (fun read source draft none => ?_)
    fun n read read' agree => .tagged _ ?_
  · cases draft with
    | array | object => cases none
    | _ => rfl
  · exact .cons ⟨rfl, .refl _ _⟩ (.cons ⟨rfl, agree_call agree⟩ (.cons ⟨rfl, .refl _ _⟩
      (.cons ⟨rfl, .refl _ _⟩ (.cons ⟨rfl, .refl _ _⟩ (.cons ⟨rfl, .refl _ _⟩
        (.cons ⟨rfl, .refl _ _⟩ .nil))))))

end Expressions

/-! ### Statements -/

section Statements

variable {inner inner' : Reader Statement}

theorem agree_block (agree : Agree depth inner inner') :
    Agree (depth + 1) (Block.reader inner) (Block.reader inner') :=
  agree_record fun row within => by rw [row.required_congr agree.list within "body"]

theorem agree_blockNode (agree : Agree depth inner inner') :
    Agree (depth + 1) (BlockNode.reader inner) (BlockNode.reader inner') := by
  have block := (agree_block agree).mono (Nat.le_succ depth)
  refine agree_record fun row within => ?_
  rw [row.required_congr block within "program", row.optional_congr block.orNull within "inverse"]

theorem agree_element (agree : Agree depth inner inner') :
    Agree (depth + 1) (Element.readerWith inner) (Element.readerWith inner') :=
  agree_record fun row within => by rw [row.optional_congr agree.list within "children"]

/-- A statement of any depth is one of its kinds, with statements of any depth inside. -/
theorem Statement.reader_eq :
    Statement.reader = .tagged Statement.title (Statement.variants Statement.reader) := by
  refine reader_eq_step rfl (fun _ => rfl) (fun read source draft none => ?_)
    fun n read read' agree => .tagged _ ?_
  · cases draft with
    | array | object => cases none
    | _ => rfl
  · exact .cons ⟨rfl, .refl _ _⟩ (.cons ⟨rfl, (agree_blockNode agree).map _⟩
      (.cons ⟨rfl, (agree_element agree).map _⟩ (.cons ⟨rfl, .refl _ _⟩
        (.cons ⟨rfl, .refl _ _⟩ (.cons ⟨rfl, .refl _ _⟩ .nil)))))

end Statements

end Template

end TemplateCompiler
