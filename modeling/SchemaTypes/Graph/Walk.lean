/-
  Depth-first walks over a graph.

  `walk next starts` lists the nodes that can be reached from `starts` by `next`, each
  once, in the order in which a depth-first search meets them.

  * `Met` holds the nodes met so far, marked and in order;
  * `visit` meets a node and all that it leads to; each call within another meets one more
    node, so that the number of nodes bounds how deep they go;
  * `mem_walk_of_mem_starts` and `mem_walk_of_mem_next` say that a walk leaves nothing out,
    `walk_induction` that it goes nowhere else;
  * `reachable` walks from the top levels to all children;
  * `collect` keeps the reachable nodes alone, in that order.
-/
import SchemaTypes.Graph

namespace SchemaTypes

/-! ## Nodes that were met -/

/-- Numbers below `n` that a search has met: marked, and listed, the last one first. -/
structure Met (n : Nat) where
  marks : Array Bool
  order : List Nat
  unmarked_iff : ∀ r, marks.getD r true = false ↔ r < n ∧ r ∉ order
  nodup : order.Nodup
  lt : ∀ r ∈ order, r < n

namespace Met

variable {n : Nat}

/-- Nothing was met. -/
def nothing (n : Nat) : Met n where
  marks := Array.replicate n false
  order := []
  unmarked_iff r := by
    rw [Array.getD_eq_getD_getElem?, Array.getElem?_replicate]
    split <;> simp [*]
  nodup := .nil
  lt := by simp

/-- Whether a number is still to be met; one that is not below `n` never is. -/
def lacks (m : Met n) (r : Nat) : Prop := m.marks.getD r true = false

instance (m : Met n) (r : Nat) : Decidable (m.lacks r) :=
  inferInstanceAs (Decidable (m.marks.getD r true = false))

theorem lacks_iff {m : Met n} {r : Nat} : m.lacks r ↔ r < n ∧ r ∉ m.order := m.unmarked_iff r

/-- Meets a number. -/
def add (m : Met n) (r : Nat) (h : m.lacks r) : Met n where
  marks := m.marks.setIfInBounds r true
  order := r :: m.order
  unmarked_iff s := by
    have hs := m.unmarked_iff s
    rw [Array.getD_eq_getD_getElem?] at hs ⊢
    rw [Array.getElem?_setIfInBounds, List.mem_cons, not_or]
    by_cases hrs : r = s
    · subst hrs
      simp only [if_true, not_true, false_and, and_false, iff_false]
      split <;> simp
    · simp only [hrs, if_false, hs, show ¬s = r from fun e => hrs e.symm, not_false_eq_true,
        true_and]
  nodup := List.nodup_cons.2 ⟨(lacks_iff.1 h).2, m.nodup⟩
  lt s hs := by
    rcases List.mem_cons.1 hs with rfl | hs
    · exact (lacks_iff.1 h).1
    · exact m.lt s hs

/-- Meets a number, unless it was met. -/
def insert (m : Met n) (r : Nat) : Met n := if h : m.lacks r then m.add r h else m

@[simp] theorem order_add (m : Met n) (r : Nat) (h : m.lacks r) :
    (m.add r h).order = r :: m.order := rfl

/-- Distinct numbers below `n` are no more than `n`. -/
theorem length_le_of_nodup {l : List Nat} (h : l.Nodup) (hn : ∀ r ∈ l, r < n) : l.length ≤ n := by
  induction n generalizing l with
  | zero =>
    cases l with
    | nil => exact Nat.le_refl 0
    | cons r l => exact absurd (hn r (by simp)) (Nat.not_lt_zero r)
  | succ n ih =>
    by_cases hl : n ∈ l
    · have hlen := List.length_erase_of_mem hl
      have := ih (h.erase n) fun r hr =>
        have hr := h.mem_erase_iff.1 hr
        Nat.lt_of_le_of_ne (Nat.le_of_lt_succ (hn r hr.2)) hr.1
      omega
    · have := ih h fun r hr =>
        Nat.lt_of_le_of_ne (Nat.le_of_lt_succ (hn r hr)) fun e => hl (e ▸ hr)
      omega

/-- Where all numbers were met, none is lacking. -/
theorem not_lacks_of_le {m : Met n} (h : n ≤ m.order.length) (r : Nat) : ¬m.lacks r := fun hr => by
  have := length_le_of_nodup (m.add r hr).nodup (m.add r hr).lt
  rw [order_add, List.length_cons] at this
  omega

end Met

/-! ## Visits -/

/-- Meets a number, unless it was met, and then all that it leads to, in at most `depth`
    calls within each other. -/
def visit {n : Nat} (next : Nat → List Nat) : Nat → Met n → Nat → Met n
  | 0, m, _ => m
  | depth + 1, m, r => if h : m.lacks r then (next r).foldl (visit next depth) (m.add r h) else m

section

variable {n : Nat} {next : Nat → List Nat}

/-- If each visit leaves what was met before at the end, visits in turn do. -/
theorem suffix_foldl {f : Met n → Nat → Met n} (hf : ∀ m r, m.order <:+ (f m r).order)
    (rs : List Nat) (m : Met n) : m.order <:+ (rs.foldl f m).order := by
  induction rs generalizing m with
  | nil => exact List.suffix_refl _
  | cons r rs ih => exact (hf m r).trans (ih _)

/-- What was met before a visit is the end of what was met after it. -/
theorem suffix_visit (depth : Nat) (m : Met n) (r : Nat) :
    m.order <:+ (visit next depth m r).order := by
  induction depth generalizing m r with
  | zero => exact List.suffix_refl _
  | succ depth ih =>
    simp only [visit]
    split
    · next h => exact (List.suffix_cons r m.order).trans (suffix_foldl ih (next r) (m.add r h))
    · exact List.suffix_refl _

/-- Whatever was met by `m'` and not by `m` has led on to all it leads to. -/
def Followed (next : Nat → List Nat) (m m' : Met n) : Prop :=
  ∀ x ∈ m'.order, x ∈ m.order ∨ ∀ c ∈ next x, c < n → c ∈ m'.order

theorem Followed.trans {m₁ m₂ m₃ : Met n} (h₁ : Followed next m₁ m₂) (h₂ : Followed next m₂ m₃)
    (h : m₂.order <:+ m₃.order) : Followed next m₁ m₃ := fun x hx => by
  rcases h₂ x hx with hx | hx
  · exact (h₁ x hx).imp_right fun hc c hcx hcn => h.subset (hc c hcx hcn)
  · exact .inr hx

/-- Visits in turn meet every number and follow what they meet, if each one does. -/
theorem foldl_visit_spec {depth : Nat}
    (hv : ∀ (m : Met n) r, n ≤ depth + m.order.length →
      (r < n → r ∈ (visit next depth m r).order) ∧ Followed next m (visit next depth m r))
    (rs : List Nat) (m : Met n) (hm : n ≤ depth + m.order.length) :
    (∀ r ∈ rs, r < n → r ∈ (rs.foldl (visit next depth) m).order) ∧
      Followed next m (rs.foldl (visit next depth) m) := by
  induction rs generalizing m with
  | nil => exact ⟨by simp, fun x hx => .inl hx⟩
  | cons r rs ih =>
    have hs : m.order <:+ (visit next depth m r).order := suffix_visit ..
    have ⟨hr, hf⟩ := hv m r hm
    have ⟨hrs, hfs⟩ := ih (visit next depth m r) (by have := hs.length_le; omega)
    have hss : (visit next depth m r).order <:+
        (rs.foldl (visit next depth) (visit next depth m r)).order :=
      suffix_foldl (suffix_visit depth) rs _
    refine ⟨fun s hsr hsn => ?_, hf.trans hfs hss⟩
    rcases List.mem_cons.1 hsr with rfl | hsr
    · exact hss.subset (hr hsn)
    · exact hrs s hsr hsn

/-- A visit that may go deep enough meets its number and follows what it meets. -/
theorem visit_spec (depth : Nat) (m : Met n) (r : Nat) (hm : n ≤ depth + m.order.length) :
    (r < n → r ∈ (visit next depth m r).order) ∧ Followed next m (visit next depth m r) := by
  induction depth generalizing m r with
  | zero =>
    have hr := m.not_lacks_of_le (by omega) r
    rw [Met.lacks_iff] at hr
    exact ⟨fun h => Decidable.by_contra fun h' => hr ⟨h, h'⟩, fun x hx => .inl hx⟩
  | succ depth ih =>
    simp only [visit]
    split
    · next h =>
      have ⟨hrs, hf⟩ := foldl_visit_spec ih (next r) (m.add r h)
        (by rw [Met.order_add, List.length_cons]; omega)
      have hs : (m.add r h).order <:+ ((next r).foldl (visit next depth) (m.add r h)).order :=
        suffix_foldl (suffix_visit depth) (next r) _
      refine ⟨fun _ => hs.subset (by simp), fun x hx => ?_⟩
      rcases hf x hx with hx | hx
      · rcases List.mem_cons.1 hx with rfl | hx
        · exact .inr hrs
        · exact .inl hx
      · exact .inr hx
    · next h =>
      rw [Met.lacks_iff] at h
      exact ⟨fun hr => Decidable.by_contra fun h' => h ⟨hr, h'⟩, fun x hx => .inl hx⟩

/-- Visits stay inside whatever holds their numbers and is closed under `next`. -/
theorem foldl_visit_induction {P : Nat → Prop} (hP : ∀ x c, P x → c ∈ next x → P c)
    (depth : Nat) (rs : List Nat) (hrs : ∀ r ∈ rs, P r) (m : Met n) :
    ∀ x ∈ (rs.foldl (visit next depth) m).order, x ∈ m.order ∨ P x := by
  induction depth generalizing rs m with
  | zero =>
    have : rs.foldl (visit next 0) m = m := by
      clear hrs
      induction rs with
      | nil => rfl
      | cons r rs ih => exact ih
    exact fun x hx => .inl (this ▸ hx)
  | succ depth ih =>
    induction rs generalizing m with
    | nil => exact fun x hx => .inl hx
    | cons r rs ih' =>
      intro x hx
      have hr := hrs r (by simp)
      rcases ih' (fun s hs => hrs s (by simp [hs])) _ x hx with hx | hx
      · simp only [visit] at hx
        split at hx
        · rcases ih (next r) (fun c hc => hP r c hr hc) _ x hx with hx | hx
          · exact (List.mem_cons.1 hx).elim (fun e => .inr (e ▸ hr)) .inl
          · exact .inr hx
        · exact .inl hx
      · exact .inr hx

theorem order_visit_leaf {depth : Nat} (hd : 0 < depth) {m : Met n} {r : Nat} (hr : m.lacks r)
    (hn : next r = []) : (visit next depth m r).order = r :: m.order := by
  obtain ⟨d, rfl⟩ := Nat.exists_eq_add_one.2 hd
  rw [visit, dif_pos hr, hn]
  rfl

/-- Visits of numbers that lead nowhere. -/
theorem order_foldl_visit_leaves {depth : Nat} (rs : List Nat) (hd : rs ≠ [] → 0 < depth)
    (m : Met n) (hrs : rs.Nodup) (hm : ∀ r ∈ rs, m.lacks r ∧ next r = []) :
    (rs.foldl (visit next depth) m).order = rs.reverse ++ m.order := by
  induction rs generalizing m with
  | nil => rfl
  | cons r rs ih =>
    have hr := hm r List.mem_cons_self
    rw [List.nodup_cons] at hrs
    have hd := hd (List.cons_ne_nil r rs)
    have ho := order_visit_leaf hd hr.1 hr.2
    rw [List.foldl_cons, ih (fun _ => hd) _ hrs.2, ho, List.reverse_cons, List.append_assoc]
    · rfl
    · intro x hx
      obtain ⟨hl, hn⟩ := hm x (List.mem_cons_of_mem r hx)
      refine ⟨Met.lacks_iff.2 ⟨(Met.lacks_iff.1 hl).1, ?_⟩, hn⟩
      rw [ho, List.mem_cons, not_or]
      exact ⟨fun h => hrs.1 (h ▸ hx), (Met.lacks_iff.1 hl).2⟩

/-- A visit of a number that leads to numbers that lead nowhere. -/
theorem order_visit_of_leaves {depth : Nat} {m : Met n} {r : Nat} (hr : m.lacks r)
    (hd : 0 < depth) (hd' : next r ≠ [] → 1 < depth) (hrs : (r :: next r).Nodup)
    (hm : ∀ c ∈ next r, m.lacks c ∧ next c = []) :
    (visit next depth m r).order = (next r).reverse ++ r :: m.order := by
  obtain ⟨d, rfl⟩ := Nat.exists_eq_add_one.2 hd
  rw [List.nodup_cons] at hrs
  rw [visit, dif_pos hr, order_foldl_visit_leaves _ (fun h => Nat.lt_of_succ_lt_succ (hd' h)) _
    hrs.2, Met.order_add]
  intro c hc
  obtain ⟨hl, hn⟩ := hm c hc
  refine ⟨Met.lacks_iff.2 ⟨(Met.lacks_iff.1 hl).1, ?_⟩, hn⟩
  rw [Met.order_add, List.mem_cons, not_or]
  exact ⟨fun h => hrs.1 (h ▸ hc), (Met.lacks_iff.1 hl).2⟩

end

namespace Graph

/-! ## Walks -/

/-- The nodes that `next` leads to from `starts`, in depth-first order. -/
def walk (g : Graph) (next : Kind → List NodeId) (starts : List NodeId) : List NodeId :=
  (starts.foldl (visit (fun r => next (g.kind r)) g.size) (.nothing g.size)).order.reverse

variable {g : Graph} {next : Kind → List NodeId} {starts : List NodeId}

theorem nodup_walk : (g.walk next starts).Nodup := List.pairwise_reverse.2 ((Met.nodup _).imp Ne.symm)

theorem lt_of_mem_walk {r : NodeId} (h : r ∈ g.walk next starts) : r < g.size :=
  Met.lt _ r (List.mem_reverse.1 h)

/-- A walk meets the nodes that it starts from. -/
theorem mem_walk_of_mem_starts {r : NodeId} (h : r ∈ starts) (hr : r < g.size) :
    r ∈ g.walk next starts :=
  List.mem_reverse.2 ((foldl_visit_spec (visit_spec _) starts _ (by simp)).1 r h hr)

/-- A walk meets whatever the nodes that it meets lead to. -/
theorem mem_walk_of_mem_next {r c : NodeId} (h : r ∈ g.walk next starts)
    (hc : c ∈ next (g.kind r)) (hcn : c < g.size) : c ∈ g.walk next starts := by
  have hf := (foldl_visit_spec (visit_spec _) starts (.nothing g.size) (by simp)).2
    r (List.mem_reverse.1 h)
  exact List.mem_reverse.2 (hf.elim (by simp [Met.nothing]) fun hf => hf c hc hcn)

/-- A walk meets nothing but the nodes it starts from and what those lead to. -/
theorem walk_induction {P : NodeId → Prop} (hs : ∀ r ∈ starts, P r)
    (hn : ∀ r c, P r → c ∈ next (g.kind r) → P c) {r : NodeId} (h : r ∈ g.walk next starts) :
    P r :=
  (foldl_visit_induction hn _ starts hs _ r (List.mem_reverse.1 h)).elim
    (by simp [Met.nothing]) id

/-- A walk from a node whose successors lead nowhere. -/
theorem walk_of_leaves {r : NodeId} (hr : r < g.size)
    (hnodup : (r :: next (g.kind r)).Nodup)
    (hleaf : ∀ c ∈ next (g.kind r), c < g.size ∧ next (g.kind c) = []) :
    g.walk next [r] = r :: next (g.kind r) := by
  have hlacks : ∀ x < g.size, (Met.nothing g.size).lacks x := fun x hx =>
    Met.lacks_iff.2 ⟨hx, List.not_mem_nil⟩
  have hd : next (g.kind r) ≠ [] → 1 < g.size := fun h => by
    obtain ⟨c, hc⟩ := List.exists_mem_of_ne_nil _ h
    have hne : c ≠ r := fun e => (List.nodup_cons.1 hnodup).1 (e ▸ hc)
    exact Decidable.byContradiction fun hn => hne <|
      (Nat.lt_one_iff.1 (Nat.lt_of_lt_of_le (hleaf c hc).1 (Nat.not_lt.1 hn))).trans
        (Nat.lt_one_iff.1 (Nat.lt_of_lt_of_le hr (Nat.not_lt.1 hn))).symm
  unfold walk
  rw [List.foldl_cons, List.foldl_nil, order_visit_of_leaves (hlacks r hr) (Nat.zero_lt_of_lt hr)
    hd hnodup fun c hc => ⟨hlacks c (hleaf c hc).1, (hleaf c hc).2⟩]
  simp [Met.nothing]

/-- The nodes that the top levels lead to, in depth-first order. -/
def reachable (g : Graph) : List NodeId := g.walk Kind.children g.topLevels.values

/-! ## Collection -/

/-- The place of each number below `n` in a row; the length of the row where it is not
    there. -/
def places (n : Nat) (row : List NodeId) : Array Nat :=
  row.zipIdx.foldl (fun a e => a.setIfInBounds e.1 e.2) (Array.replicate n row.length)

/-- The reachable nodes alone, numbered in depth-first order. -/
def collect (g : Graph) : Graph :=
  let order := g.reachable
  let places := places g.size order
  Graph.renameReferences { g with nodes := (order.map g.node).toArray }
    fun r => places.getD r order.length

/-- All properties in the order of their names. -/
def sortProperties (g : Graph) : Graph :=
  { g with nodes := g.nodes.map fun n => { n with kind := n.kind.sortProperties } }

end Graph

end SchemaTypes
