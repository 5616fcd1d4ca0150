import Mathlib.Data.List.Basic
import Mathlib.Data.List.Perm.Subperm
import Mathlib.Order.Lattice
import Mathlib.Tactic.SplitIfs

/-!
# Ordered maps and loops that erase while they iterate

A map is its list of entries in strictly increasing key order. An iterator is the
key it points at, or `none` at the end. `eraseLoop` is the usual iterator loop whose
body either erases the current entry and continues at the returned iterator, or
advances. It visits every entry exactly once, in key order.
-/

namespace HvFrame

/-- A finite map with strictly increasing keys. -/
structure OrderedMap (Key Value : Type*) [LinearOrder Key] where
  entries : List (Key × Value)
  sorted : entries.Pairwise (fun a b => a.1 < b.1)

namespace OrderedMap

variable {Key Value Acc : Type*} [LinearOrder Key]

def empty : OrderedMap Key Value := ⟨[], List.Pairwise.nil⟩

def size (m : OrderedMap Key Value) : ℕ := m.entries.length

def lookup (k : Key) (es : List (Key × Value)) : Option Value :=
  (es.find? (fun e => e.1 = k)).map Prod.snd

def find? (m : OrderedMap Key Value) (k : Key) : Option Value := lookup k m.entries

def insertEntry (k : Key) (v : Value) : List (Key × Value) → List (Key × Value)
  | [] => [(k, v)]
  | e :: es =>
      if k < e.1 then (k, v) :: e :: es
      else if k = e.1 then (k, v) :: es
      else e :: insertEntry k v es

theorem mem_insertEntry {k : Key} {v : Value} {es : List (Key × Value)} {e : Key × Value}
    (h : e ∈ insertEntry k v es) : e = (k, v) ∨ e ∈ es := by
  induction es with
  | nil => exact Or.inl (by simpa [insertEntry] using h)
  | cons e' es ih =>
    simp only [insertEntry] at h
    split_ifs at h
    · simpa using h
    · rcases List.mem_cons.mp h with h | h
      · exact Or.inl h
      · exact Or.inr (List.mem_cons_of_mem _ h)
    · rcases List.mem_cons.mp h with rfl | h
      · exact Or.inr List.mem_cons_self
      · exact (ih h).imp id (List.mem_cons_of_mem _)

theorem insertEntry_sorted (k : Key) (v : Value) (es : List (Key × Value))
    (h : es.Pairwise (fun a b => a.1 < b.1)) :
    (insertEntry k v es).Pairwise (fun a b => a.1 < b.1) := by
  induction es with
  | nil => simp [insertEntry]
  | cons e es ih =>
    obtain ⟨hhead, htail⟩ := List.pairwise_cons.mp h
    simp only [insertEntry]
    split_ifs with hlt heq
    · refine List.pairwise_cons.mpr ⟨?_, h⟩
      intro b hb
      rcases List.mem_cons.mp hb with rfl | hb
      · exact hlt
      · exact hlt.trans (hhead b hb)
    · exact List.pairwise_cons.mpr ⟨fun b hb => by simpa [heq] using hhead b hb, htail⟩
    · refine List.pairwise_cons.mpr ⟨?_, ih htail⟩
      intro b hb
      rcases mem_insertEntry hb with rfl | hb
      · exact lt_of_le_of_ne (not_lt.mp hlt) (Ne.symm heq)
      · exact hhead b hb

def insert (m : OrderedMap Key Value) (k : Key) (v : Value) : OrderedMap Key Value :=
  ⟨insertEntry k v m.entries, insertEntry_sorted k v m.entries m.sorted⟩

def erase (m : OrderedMap Key Value) (k : Key) : OrderedMap Key Value :=
  ⟨m.entries.filter (fun e => e.1 ≠ k), m.sorted.filter _⟩

def begin (m : OrderedMap Key Value) : Option Key := m.entries.head?.map Prod.fst

/-- The iterator after the one at `k`: the least key above `k`. -/
def next (m : OrderedMap Key Value) (k : Key) : Option Key :=
  (m.entries.find? (fun e => k < e.1)).map Prod.fst

/-- `for (it = begin; it != end; )` with a body that erases the current entry and
continues at the iterator `erase` returns (`none`), or keeps it and advances. Each
round consumes one unit of fuel; the number of entries is enough. -/
def eraseLoop (body : Key → Value → Acc → Option Acc) :
    ℕ → OrderedMap Key Value → Option Key → Acc → OrderedMap Key Value × Acc
  | 0, m, _, acc => (m, acc)
  | _ + 1, m, none, acc => (m, acc)
  | n + 1, m, some k, acc =>
      match m.find? k with
      | none => (m, acc)
      | some v =>
          match body k v acc with
          | some acc' => eraseLoop body n (m.erase k) (m.next k) acc'
          | none => eraseLoop body n m (m.next k) acc

/-- What the loop amounts to: one pass over the entries in key order. -/
def sweep (body : Key → Value → Acc → Option Acc) :
    List (Key × Value) → Acc → List (Key × Value) × Acc
  | [], acc => ([], acc)
  | e :: es, acc =>
      match body e.1 e.2 acc with
      | some acc' => sweep body es acc'
      | none => (e :: (sweep body es acc).1, (sweep body es acc).2)

theorem eq_of_entries {m m' : OrderedMap Key Value} (h : m.entries = m'.entries) : m = m' := by
  obtain ⟨es, hs⟩ := m
  obtain rfl : es = m'.entries := h
  rfl

@[simp] theorem find?_empty (k : Key) : (empty : OrderedMap Key Value).find? k = none := rfl

@[simp] theorem lookup_nil (k : Key) : lookup k ([] : List (Key × Value)) = none := rfl

theorem lookup_cons (k : Key) (e : Key × Value) (es : List (Key × Value)) :
    lookup k (e :: es) = if e.1 = k then some e.2 else lookup k es := by
  by_cases h : e.1 = k <;> simp [lookup, h]

theorem lookup_eq_none {k : Key} {es : List (Key × Value)} (h : ∀ e ∈ es, e.1 ≠ k) :
    lookup k es = none := by
  induction es with
  | nil => rfl
  | cons e es ih =>
    rw [lookup_cons, if_neg (h e List.mem_cons_self)]
    exact ih (fun a ha => h a (List.mem_cons_of_mem _ ha))

theorem mem_of_lookup {k : Key} {v : Value} {es : List (Key × Value)}
    (h : lookup k es = some v) : (k, v) ∈ es := by
  induction es with
  | nil => simp at h
  | cons e es ih =>
    rw [lookup_cons] at h
    split_ifs at h with hk
    · obtain rfl := Option.some.inj h
      obtain rfl := hk
      exact List.mem_cons_self
    · exact List.mem_cons_of_mem _ (ih h)

theorem lookup_insertEntry (k k' : Key) (v : Value) (es : List (Key × Value)) :
    lookup k' (insertEntry k v es) = if k = k' then some v else lookup k' es := by
  induction es with
  | nil => simp [insertEntry, lookup_cons]
  | cons e es ih =>
    by_cases hlt : k < e.1
    · simp [insertEntry, hlt, lookup_cons]
    by_cases heq : k = e.1
    · simp only [insertEntry, if_neg hlt, if_pos heq, lookup_cons]
      split_ifs with h₁ h₂
      · rfl
      · exact absurd (heq.trans h₂) h₁
      · rfl
    · simp only [insertEntry, if_neg hlt, if_neg heq, lookup_cons, ih]
      split_ifs with h₁ h₂
      · exact absurd (h₂.trans h₁.symm) heq
      all_goals rfl

@[simp] theorem find?_insert (m : OrderedMap Key Value) (k k' : Key) (v : Value) :
    (m.insert k v).find? k' = if k = k' then some v else m.find? k' :=
  lookup_insertEntry k k' v m.entries

theorem size_insert (m : OrderedMap Key Value) (k : Key) (v : Value) :
    (m.insert k v).size = m.size + if (m.find? k).isNone then 1 else 0 := by
  obtain ⟨es, hs⟩ := m
  simp only [size, insert, find?]
  induction es with
  | nil => simp [insertEntry]
  | cons e es ih =>
    obtain ⟨hhead, htail⟩ := List.pairwise_cons.mp hs
    by_cases hlt : k < e.1
    · have habsent : lookup k (e :: es) = none := by
        refine lookup_eq_none (fun a ha => ?_)
        rcases List.mem_cons.mp ha with rfl | ha
        · exact hlt.ne'
        · exact (hlt.trans (hhead a ha)).ne'
      simp [insertEntry, hlt, habsent]
    by_cases heq : k = e.1
    · simp [insertEntry, heq, lookup_cons]
    · simp only [insertEntry, if_neg hlt, if_neg heq, List.length_cons, ih htail, lookup_cons,
        if_neg (Ne.symm heq)]
      exact Nat.add_right_comm _ _ _

theorem mem_entries_iff (m : OrderedMap Key Value) (k : Key) (v : Value) :
    (k, v) ∈ m.entries ↔ m.find? k = some v := by
  refine ⟨?_, mem_of_lookup⟩
  obtain ⟨es, hs⟩ := m
  induction es with
  | nil => simp
  | cons e es ih =>
    obtain ⟨hhead, htail⟩ := List.pairwise_cons.mp hs
    intro h
    simp only [find?, lookup_cons]
    rcases List.mem_cons.mp h with rfl | h
    · simp
    · rw [if_neg (hhead (k, v) h).ne]
      exact ih htail h

theorem eq_empty_of_find? {m : OrderedMap Key Value} (h : ∀ k, m.find? k = none) :
    m = empty := by
  apply eq_of_entries
  apply List.eq_nil_iff_forall_not_mem.mpr
  rintro ⟨k, v⟩ hmem
  rw [mem_entries_iff, h k] at hmem
  cases hmem

section Keys

variable {m : OrderedMap Key Value} {ks : List Key}

def keys (m : OrderedMap Key Value) : List Key := m.entries.map Prod.fst

theorem mem_keys_iff {k : Key} : k ∈ m.keys ↔ (m.find? k).isSome := by
  rw [Option.isSome_iff_exists]
  constructor
  · intro h
    obtain ⟨⟨k', v⟩, hmem, rfl⟩ := List.mem_map.mp h
    exact ⟨v, (m.mem_entries_iff k' v).mp hmem⟩
  · rintro ⟨v, hv⟩
    exact List.mem_map_of_mem ((m.mem_entries_iff k v).mpr hv)

theorem keys_nodup (m : OrderedMap Key Value) : m.keys.Nodup :=
  (List.pairwise_map.mpr m.sorted).imp (fun h => h.ne)

theorem keys_length (m : OrderedMap Key Value) : m.keys.length = m.size := List.length_map _

theorem length_le_size (hnodup : ks.Nodup) (h : ∀ k ∈ ks, (m.find? k).isSome) :
    ks.length ≤ m.size := by
  rw [← keys_length]
  exact (hnodup.subperm (fun k hk => mem_keys_iff.mpr (h k hk))).length_le

theorem size_le (h : ∀ k, (m.find? k).isSome → k ∈ ks) : m.size ≤ ks.length := by
  rw [← keys_length]
  exact (m.keys_nodup.subperm (fun k hk => h k (mem_keys_iff.mp hk))).length_le

theorem isSome_of_size (h : ∀ k, (m.find? k).isSome → k ∈ ks) (hsize : ks.length ≤ m.size) {k : Key}
    (hk : k ∈ ks) : (m.find? k).isSome := by
  have hsub := m.keys_nodup.subperm (fun k hk => h k (mem_keys_iff.mp hk))
  have hperm := hsub.perm_of_length_le (by rwa [keys_length])
  exact mem_keys_iff.mp (hperm.mem_iff.mpr hk)

end Keys

private theorem filter_ne_eq_self {k : Key} {es : List (Key × Value)} (h : ∀ e ∈ es, e.1 ≠ k) :
    es.filter (fun e => e.1 ≠ k) = es :=
  List.filter_eq_self.mpr (fun e he => decide_eq_true (h e he))

private theorem find?_gt_append {k : Key} {pre suf : List (Key × Value)}
    (h : ∀ e ∈ pre, e.1 ≤ k) :
    (pre ++ suf).find? (fun e => k < e.1) = suf.find? (fun e => k < e.1) := by
  rw [List.find?_append, List.find?_eq_none.mpr (fun e he => by simpa using h e he)]
  rfl

/-- The loop started at the first entry of `suf` leaves `pre` alone and sweeps `suf`:
the induction is on `suf`, the entries the iterator still has in front of it. -/
private theorem eraseLoop_split (body : Key → Value → Acc → Option Acc)
    (pre suf : List (Key × Value)) (hs : (pre ++ suf).Pairwise (fun a b => a.1 < b.1))
    (acc : Acc) :
    ((eraseLoop body suf.length ⟨pre ++ suf, hs⟩ (suf.head?.map Prod.fst) acc).1.entries =
        pre ++ (sweep body suf acc).1) ∧
      (eraseLoop body suf.length ⟨pre ++ suf, hs⟩ (suf.head?.map Prod.fst) acc).2 =
        (sweep body suf acc).2 := by
  induction suf generalizing pre acc with
  | nil => simp [eraseLoop, sweep]
  | cons e suf ih =>
    obtain ⟨k, v⟩ := e
    obtain ⟨hpre, hsuf, hcross⟩ := List.pairwise_append.mp hs
    obtain ⟨hhead, -⟩ := List.pairwise_cons.mp hsuf
    have hlt : ∀ a ∈ pre, a.1 < k := fun a ha => hcross a ha (k, v) List.mem_cons_self
    have hfind : (⟨pre ++ (k, v) :: suf, hs⟩ : OrderedMap Key Value).find? k = some v :=
      (mem_entries_iff _ k v).mp (by simp)
    have hnext : (⟨pre ++ (k, v) :: suf, hs⟩ : OrderedMap Key Value).next k =
        suf.head?.map Prod.fst := by
      simp only [next, find?_gt_append (fun a ha => (hlt a ha).le)]
      cases suf with
      | nil => simp
      | cons b suf => simp [hhead b List.mem_cons_self]
    simp only [List.head?_cons, Option.map_some, List.length_cons, eraseLoop, hfind, hnext, sweep]
    cases hbody : body k v acc with
    | some acc' =>
      have hs' : (pre ++ suf).Pairwise (fun a b => a.1 < b.1) :=
        hs.sublist (List.Sublist.append_left (List.sublist_cons_self _ _) _)
      have herase : (⟨pre ++ (k, v) :: suf, hs⟩ : OrderedMap Key Value).erase k =
          ⟨pre ++ suf, hs'⟩ := by
        simp only [erase, List.filter_append, List.filter_cons, mk.injEq]
        rw [filter_ne_eq_self (fun a ha => (hlt a ha).ne),
          filter_ne_eq_self (fun a ha => (hhead a ha).ne')]
        simp
      simpa [herase] using ih pre hs' acc'
    | none =>
      have h := ih (pre ++ [(k, v)]) (by simpa using hs) acc
      simpa using h

/-- No entry is skipped and none is visited twice. -/
theorem eraseLoop_eq_sweep (body : Key → Value → Acc → Option Acc) (m : OrderedMap Key Value)
    (acc : Acc) :
    (eraseLoop body m.size m m.begin acc).1.entries = (sweep body m.entries acc).1 ∧
      (eraseLoop body m.size m m.begin acc).2 = (sweep body m.entries acc).2 := by
  simpa [size, begin] using eraseLoop_split body [] m.entries m.sorted acc

section Verdicts

variable {Report : Type*} (verdict : Key → Value → Option Report) (record : Acc → Report → Acc)

omit [LinearOrder Key] in
/-- When the accumulator only records, and does not influence which entries go, the
sweep keeps the entries without a verdict and records the others in key order. -/
theorem sweep_verdicts (es : List (Key × Value)) (acc : Acc) :
    sweep (fun k v a => (verdict k v).map (record a)) es acc =
      (es.filter (fun e => (verdict e.1 e.2).isNone),
        (es.filterMap (fun e => verdict e.1 e.2)).foldl record acc) := by
  induction es generalizing acc with
  | nil => rfl
  | cons e es ih => cases h : verdict e.1 e.2 <;> simp [sweep, h, ih]

theorem lookup_filter (keep : Key × Value → Bool) {es : List (Key × Value)}
    (hs : es.Pairwise (fun a b => a.1 < b.1)) (k : Key) :
    lookup k (es.filter keep) = (lookup k es).filter (fun v => keep (k, v)) := by
  induction es with
  | nil => rfl
  | cons e es ih =>
    obtain ⟨hhead, htail⟩ := List.pairwise_cons.mp hs
    rw [lookup_cons, List.filter_cons]
    by_cases hk : e.1 = k
    · have habsent : lookup k (es.filter keep) = none :=
        lookup_eq_none (fun a ha => hk ▸ (hhead a (List.mem_of_mem_filter ha)).ne')
      obtain ⟨k', v⟩ := e
      obtain rfl : k' = k := hk
      cases hv : keep (k', v) <;> simp [hv, lookup_cons, habsent, Option.filter_some]
    · cases keep e <;> simp [hk, lookup_cons, ih htail]

theorem filterMap_verdicts {View : Type*} (view : Report → Option View) {k : Key}
    {es : List (Key × Value)} (hs : es.Pairwise (fun a b => a.1 < b.1))
    (hother : ∀ e ∈ es, e.1 ≠ k → ∀ r, verdict e.1 e.2 = some r → view r = none) :
    (es.filterMap (fun e => verdict e.1 e.2)).filterMap view =
      (((lookup k es).bind (verdict k)).bind view).toList := by
  induction es with
  | nil => rfl
  | cons e es ih =>
    obtain ⟨hhead, htail⟩ := List.pairwise_cons.mp hs
    have hrest := ih htail (fun a ha => hother a (List.mem_cons_of_mem _ ha))
    rw [lookup_cons]
    by_cases hk : e.1 = k
    · have habsent : lookup k es = none :=
        lookup_eq_none (fun a ha => hk ▸ (hhead a ha).ne')
      obtain ⟨k', v⟩ := e
      obtain rfl : k' = k := hk
      rw [habsent, Option.bind_none, Option.bind_none, Option.toList_none] at hrest
      simp only [List.filterMap_cons, ↓reduceIte, Option.bind_some]
      cases verdict k' v with
      | none => simpa using hrest
      | some r => cases hr : view r <;> simp [hr, hrest]
    · cases hv : verdict e.1 e.2 with
      | none => simpa [hv, hk] using hrest
      | some r => simpa [hv, hk, hother e List.mem_cons_self hk r hv] using hrest

end Verdicts

end OrderedMap

end HvFrame
