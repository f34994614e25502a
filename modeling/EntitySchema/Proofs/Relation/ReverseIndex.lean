import EntitySchema.Proofs.Thawed.Record
import EntitySchema.Proofs.WellFormed

/-!
# What the reverse index holds

Of the edges with one key the index holds a copy of the first, filed under its target, and nothing
else. Models that are listed once more add nothing to it. A copy holds what its field holds, provided
that the field was read from a document: the default of such a field is itself a copy.
-/

set_option autoImplicit false

namespace EntitySchema

/-! The first element with each key. -/

/-- The elements of a list that have a key first, one for each key, in order. -/
structure FirstOfEach {α : Type} (key : α → String) (xs found : List α) : Prop where
  mem_keys_iff : ∀ k, k ∈ found.map key ↔ k ∈ xs.map key
  first : ∀ a ∈ found, xs.find? (fun x => key x == key a) = some a
  in_order : found.Pairwise fun a b => (xs.map key).idxOf (key a) < (xs.map key).idxOf (key b)

section FirstByKey

variable {α : Type} {key : α → String} {seen : List String} {xs ys : List α}

theorem firstByKey_eq_self_iff : firstByKey key [] xs = xs ↔ (xs.map key).Nodup := by
  constructor
  · intro h
    exact h ▸ nodup_keys_firstByKey key [] xs
  · exact fun hn => firstByKey_eq_self hn fun _ _ => List.not_mem_nil

theorem pairwise_idxOf_firstByKey : (firstByKey key seen xs).Pairwise fun a b =>
    (xs.map key).idxOf (key a) < (xs.map key).idxOf (key b) := by
  induction xs generalizing seen with
  | nil => exact .nil
  | cons x xs ih =>
    -- Elements that are kept behind `x` have other keys, so `x` moves them on by one.
    have hlater : ∀ {taken} {a}, key x ∈ taken → a ∈ firstByKey key taken xs →
        ((x :: xs).map key).idxOf (key a) = (xs.map key).idxOf (key a) + 1 := by
      intro taken a hx ha
      have hne : key x ≠ key a := fun he => key_not_mem_of_mem_firstByKey ha (he ▸ hx)
      rw [List.map_cons, List.idxOf_cons_ne _ hne]
    have hrest : ∀ {taken}, key x ∈ taken → (firstByKey key taken xs).Pairwise fun a b =>
        ((x :: xs).map key).idxOf (key a) < ((x :: xs).map key).idxOf (key b) := by
      intro taken hx
      refine ih.imp_of_mem fun ha hb hab => ?_
      rw [hlater hx ha, hlater hx hb]
      exact Nat.succ_lt_succ hab
    rw [firstByKey]
    split
    · next hx => exact hrest (by simpa using hx)
    · refine .cons (fun b hb => ?_) (hrest List.mem_cons_self)
      rw [hlater List.mem_cons_self hb, List.map_cons, List.idxOf_cons_self]
      exact Nat.succ_pos _

theorem firstOfEach_firstByKey (key : α → String) (xs : List α) :
    FirstOfEach key xs (firstByKey key [] xs) where
  mem_keys_iff k := by simpa using mem_keys_firstByKey key [] xs k
  first _ := find?_of_mem_firstByKey
  in_order := pairwise_idxOf_firstByKey

theorem firstByKey_eq_nil (h : ∀ y ∈ ys, key y ∈ seen) : firstByKey key seen ys = [] := by
  induction ys with
  | nil => rfl
  | cons y ys ih =>
    rw [List.forall_mem_cons] at h
    rw [firstByKey, if_pos (by simpa using h.1), ih h.2]

/-- What follows adds nothing if its keys have occurred. -/
theorem firstByKey_append (h : ∀ y ∈ ys, key y ∈ xs.map key ∨ key y ∈ seen) :
    firstByKey key seen (xs ++ ys) = firstByKey key seen xs := by
  induction xs generalizing seen with
  | nil => exact firstByKey_eq_nil fun y hy => (h y hy).resolve_left List.not_mem_nil
  | cons x xs ih =>
    have hmoved : ∀ {taken : List String}, key x ∈ taken → (∀ k ∈ seen, k ∈ taken) →
        ∀ y ∈ ys, key y ∈ xs.map key ∨ key y ∈ taken := by
      intro taken hx hsub y hy
      rcases h y hy with hkey | hseen
      · rw [List.map_cons, List.mem_cons] at hkey
        exact hkey.elim (fun he => .inr (he ▸ hx)) .inl
      · exact .inr (hsub _ hseen)
    rw [List.cons_append, firstByKey, firstByKey]
    split
    · next hx => exact ih (hmoved (by simpa using hx) fun _ => id)
    · rw [ih (hmoved List.mem_cons_self fun _ => List.mem_cons_of_mem _)]

end FirstByKey

/-- Sorting a list into bins loses nothing if there is a bin for every element. -/
theorem perm_flatMap_filter {α : Type} {bin : α → String} {bins : List String} (hn : bins.Nodup)
    {xs : List α} (h : ∀ x ∈ xs, bin x ∈ bins) :
    (bins.flatMap fun b => xs.filter fun x => bin x == b).Perm xs := by
  induction bins generalizing xs with
  | nil =>
    cases xs with
    | nil => exact .refl _
    | cons x xs => exact absurd (h x List.mem_cons_self) List.not_mem_nil
  | cons b bins ih =>
    rw [List.nodup_cons] at hn
    -- The first bin takes its elements, and the other bins share what is left.
    let others := xs.filter fun x => !(bin x == b)
    have hothers : ∀ b' ∈ bins, xs.filter (fun x => bin x == b') =
        others.filter fun x => bin x == b' := by
      intro b' hb'
      have hne : b' ≠ b := fun he => hn.1 (he ▸ hb')
      rw [List.filter_filter]
      refine List.filter_congr fun x _ => ?_
      by_cases hx : bin x = b' <;> simp [hx, hne]
    have hbins : ∀ x ∈ others, bin x ∈ bins := by
      intro x hx
      obtain ⟨hmem, hne⟩ := List.mem_filter.mp hx
      exact (List.mem_cons.mp (h x hmem)).resolve_left (by simpa using hne)
    rw [List.flatMap_cons, List.flatMap_congr hothers]
    exact ((ih hn.2 hbins).append_left _).trans (List.filter_append_perm _ xs)

namespace ReverseIndex

/-! Edges. -/

def edgesOf (known : List String) (m : Model) : List (String × Field) :=
  (m.fields.items.filter fun f => f.isRelation && known.contains f.typeName).map
    fun f => (f.edgeKey m.name, f)

theorem edges_eq (models : List Model) :
    edges models = models.flatMap (edgesOf (models.map (·.name))) := rfl

theorem mem_edges {models : List Model} {e : String × Field} : e ∈ edges models ↔
    ∃ m ∈ models, ∃ f ∈ m.fields.items, f.isRelation = true ∧ f.typeName ∈ models.map (·.name) ∧
      (f.edgeKey m.name, f) = e := by
  simp only [edges, List.mem_flatMap, List.mem_map, List.mem_filter, Bool.and_eq_true,
    List.contains_iff_mem, and_assoc]

/-- What is found as an edge is a field of one of the models. -/
theorem exists_mem_of_mem_distinctEdges {models : List Model} {f : Field}
    (h : f ∈ distinctEdges models) : ∃ m ∈ models, f ∈ m.fields.items := by
  obtain ⟨e, he, rfl⟩ := List.mem_map.mp h
  obtain ⟨m, hm, f, hf, -, -, rfl⟩ := mem_edges.mp ((firstByKey_sublist _ _ _).mem he)
  exact ⟨m, hm, hf⟩

theorem typeName_mem_names {models : List Model} {e : String × Field} (h : e ∈ edges models) :
    e.2.typeName ∈ models.map (·.name) := by
  obtain ⟨m, -, f, -, -, hknown, rfl⟩ := mem_edges.mp h
  exact hknown

theorem edgesOf_congr {known known' : List String} (h : ∀ name, name ∈ known ↔ name ∈ known')
    (m : Model) : edgesOf known m = edgesOf known' m := by
  have hcontains : known.contains = known'.contains := by
    funext name
    rw [Bool.eq_iff_iff, List.contains_iff_mem, List.contains_iff_mem, h]
  rw [edgesOf, edgesOf, hcontains]

/-! The index. -/

theorem keys_build (frozen : Bool) (models : List Model) :
    (build frozen models).entries.map (·.1) = firstByKey id [] (models.map (·.name)) := by
  simp [build, Function.comp_def]

theorem find?_build (frozen : Bool) (models : List Model) {name : String}
    (h : name ∈ models.map (·.name)) : (build frozen models).find? name =
      some ⟨frozen, ((distinctEdges models).filter (·.typeName == name)).map (Field.copy frozen)⟩ :=
  List.lookup_graph _ ((mem_distinct _ name).mpr h)

theorem perm_items_build (frozen : Bool) (models : List Model) :
    ((build frozen models).entries.flatMap fun e => e.2.items).Perm
      ((distinctEdges models).map (Field.copy frozen)) := by
  have hbins : ∀ f ∈ distinctEdges models, f.typeName ∈ firstByKey id [] (models.map (·.name)) := by
    intro f hf
    obtain ⟨e, he, rfl⟩ := List.mem_map.mp hf
    exact (mem_distinct _ _).mpr (typeName_mem_names ((firstByKey_sublist _ _ _).mem he))
  have hperm := (perm_flatMap_filter (nodup_distinct _) hbins).map (Field.copy frozen)
  rw [List.map_flatMap] at hperm
  rw [build, List.flatMap_map]
  exact hperm

theorem build_append (frozen : Bool) {models more : List Model} (h : ∀ m ∈ more, m ∈ models) :
    build frozen (models ++ more) = build frozen models := by
  have hnames : ∀ name, name ∈ (models ++ more).map (·.name) ↔ name ∈ models.map (·.name) := by
    intro name
    rw [List.map_append, List.mem_append, or_iff_left_iff_imp]
    intro hname
    obtain ⟨m, hm, rfl⟩ := List.mem_map.mp hname
    exact List.mem_map_of_mem (h m hm)
  have hedges : edges (models ++ more) =
      edges models ++ more.flatMap (edgesOf (models.map (·.name))) := by
    rw [edges_eq, edges_eq, funext (edgesOf_congr hnames), List.flatMap_append]
  have hdistinct : distinctEdges (models ++ more) = distinctEdges models := by
    rw [distinctEdges, distinctEdges, hedges, firstByKey_append]
    intro e he
    obtain ⟨m, hm, he⟩ := List.mem_flatMap.mp he
    exact .inl (List.mem_map_of_mem (edges_eq models ▸ List.mem_flatMap.mpr ⟨m, h m hm, he⟩))
  have hkeys : firstByKey id [] ((models ++ more).map (·.name)) =
      firstByKey id [] (models.map (·.name)) := by
    rw [List.map_append, firstByKey_append]
    intro name hname
    rw [List.map_id]
    exact .inl ((hnames name).mp (List.map_append ▸ List.mem_append_right _ hname))
  simp only [build, hdistinct, hkeys]

end ReverseIndex

/-! Fields that were read, and their copies. -/

inductive Model.Parsed : Model → Prop
  | read (frozen : Bool) (node : ModelNode) : Parsed (ofNode frozen node).value
  | withViews {m : Model} (h : Parsed m) (frozen : Bool) (index : ReverseIndex) :
    Parsed (m.withViews frozen index)

theorem Model.Parsed.exists_keptDefault {m : Model} (h : m.Parsed) {f : Field}
    (hf : f ∈ m.fields.items) : ∃ frozen owner raw,
      f.defaultValue = (Value.keptDefault frozen owner raw).value := by
  induction h with
  | read frozen node =>
    obtain ⟨fieldNode, rfl⟩ := NodeReader.exists_read_of_mem_readAll _ _ hf
    refine ⟨frozen, node.name ++ "." ++ fieldNode.name, fieldNode.defaultValue, ?_⟩
    exact congrArg Field.defaultValue (Field.value_ofNode _ _ _ fieldNode)
  | withViews _ _ _ ih => exact ih hf

theorem Model.Parsed.thawed_copy {m : Model} (h : m.Parsed) {f : Field} (hf : f ∈ m.fields.items)
    (frozen : Bool) : (f.copy frozen).thawed = f.thawed := by
  obtain ⟨kept, owner, raw, hdefault⟩ := h.exists_keptDefault hf
  have hthawed : (f.defaultValue.copyDefault frozen).thawed = f.defaultValue.thawed := by
    rw [hdefault, Value.thawed_copyDefault_keptDefault]
  simp [Field.copy, Field.thawed, hthawed, Function.comp_def]

theorem parsed_of_mem_readSchema {frozen : Bool} {dataModel : Value} {m : Model}
    (h : m ∈ (readSchema frozen dataModel).value.models.items) : m.Parsed := by
  obtain ⟨read, hread, rfl⟩ := List.mem_map.mp h
  obtain ⟨node, rfl⟩ := NodeReader.exists_read_of_mem_readAll _ _ hread
  exact .withViews (.read frozen node) frozen _

/-! The index as a whole. -/

/-- An index of models that holds a copy of the edges that are found, and nothing else. -/
structure ReverseIndex.Exact (index : ReverseIndex) (frozen : Bool) (models : List Model)
    (found : List (String × Field)) : Prop where
  names : FirstOfEach id (models.map (·.name)) (index.entries.map (·.1))
  edges : FirstOfEach (·.1) (edges models) found
  filed : ∀ name ∈ models.map (·.name), index.find? name =
    some ⟨frozen, (found.filter (·.2.typeName == name)).map fun e => e.2.copy frozen⟩
  complete : (index.entries.flatMap fun e => e.2.items).Perm (found.map fun e => e.2.copy frozen)
  faithful : ∀ e ∈ found, (e.2.copy frozen).thawed = e.2.thawed

/-- The index of models that were read holds one faithful copy for each edge key, however often
models are listed, and listing some of them again changes nothing. -/
theorem ReverseIndex.build_exact (frozen : Bool) {models : List Model}
    (h : ∀ m ∈ models, m.Parsed) :
    (∃ found, (build frozen models).Exact frozen models found) ∧
      ∀ more, (∀ m ∈ more, m ∈ models) → build frozen (models ++ more) = build frozen models := by
  refine ⟨⟨firstByKey (·.1) [] (ReverseIndex.edges models), ?_⟩, fun more => build_append frozen⟩
  constructor
  case names =>
    rw [keys_build]
    exact firstOfEach_firstByKey _ _
  case edges => exact firstOfEach_firstByKey _ _
  case filed =>
    intro name hname
    rw [find?_build frozen models hname, distinctEdges, List.filter_map, List.map_map]
    rfl
  case complete =>
    have hperm := perm_items_build frozen models
    rw [distinctEdges, List.map_map] at hperm
    exact hperm
  case faithful =>
    intro e he
    obtain ⟨m, hm, f, hf, -, -, rfl⟩ := mem_edges.mp ((firstByKey_sublist _ _ _).mem he)
    exact (h m hm).thawed_copy hf frozen

/-! A user with posts, listed twice. A post leads back to its user, and to a model that is not there. -/

def relationDeclaration (name target : String) (default : Value) : Value :=
  .map 0 [(.text "name", .text name), (.text "type", .text target), (.text "kind", .text "object"),
    (.text "default", default)]

def modelOf (name : String) (fields : List Value) : Model :=
  (Model.ofNode false ⟨name, fields, none, none, none, none⟩).value

def user : Model :=
  modelOf "User" [relationDeclaration "posts" "Post"
    (.seq false [.map 0 [(.int 1, .seq false [.bool true])]])]

def post : Model :=
  modelOf "Post" [relationDeclaration "author" "User" .null,
    relationDeclaration "ghost" "Missing" .null]

theorem ReverseIndex.build_exact_repeated :
    (∀ m ∈ [user, post, user], m.Parsed) ∧
      (edges [user, post, user]).map (·.1) = ["User.posts.implicit.Post.0:0",
        "Post.author.implicit.User.0:0", "User.posts.implicit.Post.0:0"] ∧
      ((build true [user, post, user]).entries.map fun e => (e.1, e.2.items.map (·.name))) =
        [("User", ["author"]), ("Post", ["posts"])] ∧
      (∃ found, (build true [user, post, user]).Exact true [user, post, user] found) ∧
      build true [user, post, user] = build true [user, post] := by
  have hparsed : ∀ m ∈ [user, post, user], m.Parsed := by
    rw [List.forall_mem_cons, List.forall_mem_cons, List.forall_mem_singleton]
    exact ⟨.read _ _, .read _ _, .read _ _⟩
  have honce : ∀ m ∈ [user, post], m.Parsed := fun m hm =>
    hparsed m (List.mem_append_left [user] hm)
  refine ⟨hparsed, by decide +kernel, by decide +kernel, (build_exact true hparsed).1, ?_⟩
  apply (build_exact true honce).2 [user]
  intro m hm
  exact List.mem_singleton.mp hm ▸ List.mem_cons_self

end EntitySchema
