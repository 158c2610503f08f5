import Mathlib.Data.List.Nodup
import Mathlib.Data.List.TakeDrop

/-!
# Lists threaded through an array, with lazy removal

A stack of array indices stored as one head cell and one predecessor cell per node. Removing a
node only marks it, and every walk skips the marked nodes. `Chain prev head nodes` says which
nodes a walk from `head` visits. The walks carry fuel, and each specification shows that as much
fuel as there are nodes is enough for the walk to end by its own test.
-/

namespace Chronicle.Library.LazyChain

/-- Following `prev` from `head` visits exactly `nodes` and ends at a negative cell. -/
inductive Chain (prev : Nat → Int) : Int → List Nat → Prop where
  | nil {head : Int} : head < 0 → Chain prev head []
  | cons {node : Nat} {rest : List Nat} :
      Chain prev (prev node) rest → Chain prev node (node :: rest)

/-- Skip the marked nodes at the front of the list. -/
def pruneHead (prev : Nat → Int) (marked : Nat → Bool) : Nat → Int → Int
  | 0, head => head
  | fuel + 1, head =>
      if 0 ≤ head ∧ marked head.toNat then pruneHead prev marked fuel (prev head.toNat)
      else head

/-- The first unmarked node that is wanted, or `none` once an unmarked node is not valid. -/
def findFrom (prev : Nat → Int) (marked valid wanted : Nat → Bool) : Nat → Int → Option Nat
  | 0, _ => none
  | fuel + 1, cursor =>
      if cursor < 0 then none
      else
        let index := cursor.toNat
        if marked index then findFrom prev marked valid wanted fuel (prev index)
        else if !valid index then none
        else if wanted index then some index
        else findFrom prev marked valid wanted fuel (prev index)

/-- Mark and collect the wanted nodes, up to the first unmarked node that is not valid. -/
def collectFrom (prev : Nat → Int) (valid wanted : Nat → Bool) :
    Nat → Int → Array Bool → Array Bool × List Nat
  | 0, _, marks => (marks, [])
  | fuel + 1, cursor, marks =>
      if cursor < 0 then (marks, [])
      else
        let index := cursor.toNat
        if marks.getD index false then collectFrom prev valid wanted fuel (prev index) marks
        else if !valid index then (marks, [])
        else if wanted index then
          let (updated, found) :=
            collectFrom prev valid wanted fuel (prev index) (marks.setIfInBounds index true)
          (updated, index :: found)
        else collectFrom prev valid wanted fuel (prev index) marks

/-- Visit every unmarked node once: mark and collect the accepted ones, and list the others. -/
def sweepFrom (prev : Nat → Int) (accepted : Nat → Bool) :
    Nat → Int → Array Bool → Array Bool × List Nat × List Nat
  | 0, _, marks => (marks, [], [])
  | fuel + 1, cursor, marks =>
      if cursor < 0 then (marks, [], [])
      else
        let index := cursor.toNat
        if marks.getD index false then sweepFrom prev accepted fuel (prev index) marks
        else if accepted index then
          let (updated, found, left) :=
            sweepFrom prev accepted fuel (prev index) (marks.setIfInBounds index true)
          (updated, index :: found, left)
        else
          let (updated, found, left) := sweepFrom prev accepted fuel (prev index) marks
          (updated, found, index :: left)

/-- Reading a cell after one cell was written. -/
theorem getD_set {α : Type*} (cells : Array α) (i j : Nat) (value dflt : α) :
    (cells.setIfInBounds i value).getD j dflt =
      if i = j ∧ i < cells.size then value else cells.getD j dflt := by
  simp only [Array.getD_eq_getD_getElem?, Array.getElem?_setIfInBounds]
  by_cases hij : i = j
  · subst hij
    by_cases hi : i < cells.size <;> simp [hi]
  · simp [hij]

/-- A cell of a written array is the written value or an old cell. -/
theorem getD_set_lt {cells : Array Int} {i : Nat} {value dflt limit : Int}
    (hcells : ∀ j, cells.getD j dflt < limit) (hvalue : value < limit) (j : Nat) :
    (cells.setIfInBounds i value).getD j dflt < limit := by
  rw [getD_set]
  split
  · exact hvalue
  · exact hcells j

/-- A chain depends only on the predecessor cells of its own nodes. -/
theorem Chain.congr {prev other : Nat → Int} {head : Int} {nodes : List Nat}
    (h : Chain prev head nodes) (heq : ∀ node ∈ nodes, other node = prev node) :
    Chain other head nodes := by
  induction h with
  | nil hneg => exact .nil hneg
  | @cons node rest _ ih =>
      refine .cons ?_
      rw [heq node (by simp)]
      exact ih fun later hlater => heq later (by simp [hlater])

/-- A chain starts at a negative cell only when it has no nodes. -/
theorem Chain.nil_of_neg {prev : Nat → Int} {head : Int} {nodes : List Nat}
    (h : Chain prev head nodes) (hneg : head < 0) : nodes = [] := by
  cases h with
  | nil _ => rfl
  | cons _ => omega

/-- Nodes in strictly decreasing order below a bound are no more than the bound. -/
theorem length_le_of_decreasing {nodes : List Nat} {bound : Nat}
    (hdec : nodes.Pairwise (· > ·)) (hlt : ∀ node ∈ nodes, node < bound) :
    nodes.length ≤ bound := by
  induction nodes generalizing bound with
  | nil => simp
  | cons node rest ih =>
      rw [List.pairwise_cons] at hdec
      have hrest := ih hdec.2 fun later hlater => hdec.1 later hlater
      have hnode := hlt node (by simp)
      simp only [List.length_cons]
      omega

section Walks

variable {prev : Nat → Int} {marked valid wanted : Nat → Bool}

/-- Pruning leaves the chain without its marked front. -/
theorem pruneHead_chain {fuel : Nat} {head : Int} {nodes : List Nat}
    (h : Chain prev head nodes) (hfuel : nodes.length ≤ fuel) :
    Chain prev (pruneHead prev marked fuel head) (nodes.dropWhile marked) := by
  induction h generalizing fuel with
  | @nil head hneg =>
      cases fuel with
      | zero => exact .nil hneg
      | succ fuel =>
          have hhead : ¬ (0 ≤ head ∧ marked head.toNat = true) := by omega
          simpa [pruneHead, hhead] using Chain.nil hneg
  | @cons node rest htail ih =>
      cases fuel with
      | zero => simp at hfuel
      | succ fuel =>
          have hrest : rest.length ≤ fuel := by simpa using hfuel
          by_cases hmarked : marked node = true
          · simpa [pruneHead, hmarked] using ih hrest
          · simpa [pruneHead, hmarked] using Chain.cons htail

/-- Dropping marked nodes at the front does not change which unmarked nodes there are. -/
theorem filter_dropWhile (nodes : List Nat) :
    (nodes.dropWhile marked).filter (fun node => !marked node) =
      nodes.filter (fun node => !marked node) := by
  induction nodes with
  | nil => rfl
  | cons node rest ih =>
      by_cases hmarked : marked node = true
      · simp [hmarked, ih]
      · simp [hmarked]

/-- A search inspects the unmarked nodes in order and stops before the first one not valid. -/
theorem findFrom_eq {fuel : Nat} {head : Int} {nodes : List Nat}
    (h : Chain prev head nodes) (hfuel : nodes.length ≤ fuel) :
    findFrom prev marked valid wanted fuel head =
      ((nodes.filter fun node => !marked node).takeWhile valid).find? wanted := by
  induction h generalizing fuel with
  | nil hneg =>
      cases fuel with
      | zero => rfl
      | succ fuel => simp [findFrom, hneg]
  | @cons node rest _ ih =>
      cases fuel with
      | zero => simp at hfuel
      | succ fuel =>
          have hrest : rest.length ≤ fuel := by simpa using hfuel
          have hpos : ¬ (node : Int) < 0 := by omega
          by_cases hmarked : marked node = true
          · simp [findFrom, hpos, hmarked, ih hrest]
          · by_cases hvalid : valid node = true
            · by_cases hwanted : wanted node = true
              · simp [findFrom, hpos, hmarked, hvalid, hwanted]
              · simp [findFrom, hpos, hmarked, hvalid, hwanted, ih hrest]
            · simp [findFrom, hmarked, hvalid]

/-- A collecting walk finds the wanted nodes before the first one not valid. -/
theorem collectFrom_found (valid wanted : Nat → Bool) {fuel : Nat} {head : Int}
    {nodes : List Nat} (marks : Array Bool) (h : Chain prev head nodes)
    (hfuel : nodes.length ≤ fuel) (hnodup : nodes.Nodup) :
    (collectFrom prev valid wanted fuel head marks).2 =
      ((nodes.filter fun node => !marks.getD node false).takeWhile valid).filter wanted := by
  induction h generalizing fuel marks with
  | nil hneg =>
      cases fuel with
      | zero => rfl
      | succ fuel => simp [collectFrom, hneg]
  | @cons node rest _ ih =>
      cases fuel with
      | zero => simp at hfuel
      | succ fuel =>
          have hrest : rest.length ≤ fuel := by simpa using hfuel
          have hpos : ¬ (node : Int) < 0 := by omega
          rw [List.nodup_cons] at hnodup
          by_cases hmarked : marks.getD node false = true
          · simp [collectFrom, -Array.getD_eq_getD_getElem?, hpos, hmarked,
              ih marks hrest hnodup.2]
          · by_cases hvalid : valid node = true
            · by_cases hwanted : wanted node = true
              · have hsame : (rest.filter fun later =>
                      !(marks.setIfInBounds node true).getD later false) =
                    rest.filter fun later => !marks.getD later false := by
                  apply List.filter_congr
                  intro later hlater
                  have hne : node ≠ later := fun heq => hnodup.1 (heq ▸ hlater)
                  rw [getD_set]
                  simp [hne]
                simp [collectFrom, -Array.getD_eq_getD_getElem?, hpos, hmarked, hvalid, hwanted,
                  ih (marks.setIfInBounds node true) hrest hnodup.2, hsame]
              · simp [collectFrom, -Array.getD_eq_getD_getElem?, hpos, hmarked, hvalid, hwanted,
                  ih marks hrest hnodup.2]
            · simp [collectFrom, -Array.getD_eq_getD_getElem?, hpos, hmarked, hvalid]

/-- A collecting walk keeps the number of mark cells. -/
theorem collectFrom_size (fuel : Nat) (head : Int) (marks : Array Bool) :
    (collectFrom prev valid wanted fuel head marks).1.size = marks.size := by
  fun_induction collectFrom prev valid wanted fuel head marks <;> simp_all

/-- A collecting walk marks what it collects and nothing else. -/
theorem collectFrom_marks {fuel : Nat} {head : Int} {marks : Array Bool} {node : Nat}
    (hnode : node < marks.size) :
    (collectFrom prev valid wanted fuel head marks).1.getD node false =
      (marks.getD node false ||
        decide (node ∈ (collectFrom prev valid wanted fuel head marks).2)) := by
  fun_induction collectFrom prev valid wanted fuel head marks with
  | case1 _ marks => simp
  | case2 fuel cursor marks hneg => simp
  | case3 fuel cursor marks hneg index hmarked ih => exact ih hnode
  | case4 fuel cursor marks hneg index hmarked hvalid => simp
  | case5 fuel cursor marks hneg index hmarked hvalid hwanted updated found heq ih =>
      rw [heq] at ih
      rw [ih (by simpa using hnode), getD_set]
      by_cases hindex : index = node
      · subst hindex
        simp [hnode]
      · have hother : node ≠ index := fun h => hindex h.symm
        simp [hindex, hother]
  | case6 fuel cursor marks hneg index hmarked hvalid hwanted ih => exact ih hnode

/-- A sweep splits the unmarked nodes into the accepted ones and the others, in order. -/
theorem sweepFrom_found (accepted : Nat → Bool) {fuel : Nat} {head : Int} {nodes : List Nat}
    (marks : Array Bool) (h : Chain prev head nodes) (hfuel : nodes.length ≤ fuel)
    (hnodup : nodes.Nodup) :
    (sweepFrom prev accepted fuel head marks).2 =
      ((nodes.filter fun node => !marks.getD node false).filter accepted,
        (nodes.filter fun node => !marks.getD node false).filter fun node => !accepted node) := by
  induction h generalizing fuel marks with
  | nil hneg =>
      cases fuel with
      | zero => rfl
      | succ fuel => simp [sweepFrom, hneg]
  | @cons node rest _ ih =>
      cases fuel with
      | zero => simp at hfuel
      | succ fuel =>
          have hrest : rest.length ≤ fuel := by simpa using hfuel
          have hpos : ¬ (node : Int) < 0 := by omega
          rw [List.nodup_cons] at hnodup
          by_cases hmarked : marks.getD node false = true
          · simp only [sweepFrom, Int.toNat_natCast, hmarked, if_true, Bool.not_true,
              Bool.false_eq_true, not_false_eq_true, List.filter_cons_of_neg]
            rw [if_neg hpos, ih marks hrest hnodup.2]
          · by_cases haccepted : accepted node = true
            · have hsame : (rest.filter fun later =>
                    !(marks.setIfInBounds node true).getD later false) =
                  rest.filter fun later => !marks.getD later false := by
                apply List.filter_congr
                intro later hlater
                have hne : node ≠ later := fun heq => hnodup.1 (heq ▸ hlater)
                rw [getD_set]
                simp [hne]
              have htail := ih (marks.setIfInBounds node true) hrest hnodup.2
              rw [hsame] at htail
              simp [sweepFrom, -Array.getD_eq_getD_getElem?, hpos, hmarked, haccepted, htail]
            · have htail := ih marks hrest hnodup.2
              simp [sweepFrom, -Array.getD_eq_getD_getElem?, hpos, hmarked, haccepted, htail]

end Walks

section Limits

/-! A walk returns only nodes below a limit, if the cells of such nodes are below it too. -/

variable {prev : Nat → Int} {limit : Int}

/-- A pruned head is the old head or a predecessor cell. -/
theorem pruneHead_lt {marked : Nat → Bool}
    (hprev : ∀ i : Nat, (i : Int) < limit → prev i < limit) {fuel : Nat} {head : Int}
    (hhead : head < limit) : pruneHead prev marked fuel head < limit := by
  induction fuel generalizing head with
  | zero => exact hhead
  | succ fuel ih =>
      unfold pruneHead
      split
      · exact ih (hprev _ (by omega))
      · exact hhead

/-- A search returns a node below the limit of the cells. -/
theorem findFrom_lt {marked valid wanted : Nat → Bool}
    (hprev : ∀ i : Nat, (i : Int) < limit → prev i < limit) {fuel : Nat} {head : Int}
    (hhead : head < limit) {node : Nat}
    (h : findFrom prev marked valid wanted fuel head = some node) : (node : Int) < limit := by
  fun_induction findFrom prev marked valid wanted fuel head with
  | case1 => cases h
  | case2 => cases h
  | case3 fuel cursor hneg index hmarked ih => exact ih (hprev _ (by omega)) h
  | case4 => cases h
  | case5 fuel cursor hneg index hmarked hvalid hwanted =>
      have hnode : cursor.toNat = node := Option.some.inj h
      omega
  | case6 fuel cursor hneg index hmarked hvalid hwanted ih => exact ih (hprev _ (by omega)) h

/-- A collecting walk collects nodes below the limit of the cells. -/
theorem collectFrom_lt {valid wanted : Nat → Bool}
    (hprev : ∀ i : Nat, (i : Int) < limit → prev i < limit) {fuel : Nat} {head : Int}
    {marks : Array Bool} (hhead : head < limit) :
    ∀ node ∈ (collectFrom prev valid wanted fuel head marks).2, (node : Int) < limit := by
  fun_induction collectFrom prev valid wanted fuel head marks with
  | case1 => simp
  | case2 => simp
  | case3 fuel cursor marks hneg index hmarked ih => exact ih (hprev _ (by omega))
  | case4 => simp
  | case5 fuel cursor marks hneg index hmarked hvalid hwanted updated found heq ih =>
      rw [heq] at ih
      intro node hnode
      rcases List.mem_cons.mp hnode with rfl | hnode
      · omega
      · exact ih (hprev _ (by omega)) node hnode
  | case6 fuel cursor marks hneg index hmarked hvalid hwanted ih => exact ih (hprev _ (by omega))

/-- A sweep lists nodes below the limit of the cells. -/
theorem sweepFrom_lt {accepted : Nat → Bool}
    (hprev : ∀ i : Nat, (i : Int) < limit → prev i < limit) {fuel : Nat} {head : Int}
    {marks : Array Bool} (hhead : head < limit) :
    ∀ node ∈ (sweepFrom prev accepted fuel head marks).2.1 ++
      (sweepFrom prev accepted fuel head marks).2.2, (node : Int) < limit := by
  fun_induction sweepFrom prev accepted fuel head marks with
  | case1 => simp
  | case2 => simp
  | case3 fuel cursor marks hneg index hmarked ih => exact ih (hprev _ (by omega))
  | case4 fuel cursor marks hneg index hmarked haccepted updated found left heq ih =>
      rw [heq] at ih
      intro node hnode
      rcases List.mem_cons.mp hnode with rfl | hnode
      · omega
      · exact ih (hprev _ (by omega)) node hnode
  | case5 fuel cursor marks hneg index hmarked haccepted updated found left heq ih =>
      rw [heq] at ih
      intro node hnode
      rcases List.mem_append.mp hnode with hnode | hnode
      · exact ih (hprev _ (by omega)) node (List.mem_append_left _ hnode)
      · rcases List.mem_cons.mp hnode with rfl | hnode
        · omega
        · exact ih (hprev _ (by omega)) node (List.mem_append_right _ hnode)

end Limits

end Chronicle.Library.LazyChain
