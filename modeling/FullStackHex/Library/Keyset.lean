import Mathlib

/-!
Paging through rows by a key in descending order. A page starts below the key of
the last row of the page before it, whatever has happened to the rows meanwhile.
-/

namespace Keyset

variable {ρ κ : Type} [LinearOrder κ] (key : ρ → κ)

/-- Strictly below the bound, if there is one. -/
def Below (bound : Option κ) (k : κ) : Prop := ∀ b ∈ bound, k < b

instance (bound : Option κ) (k : κ) : Decidable (Below bound k) :=
  inferInstanceAs (Decidable (∀ b ∈ bound, k < b))

/-- The rows below the bound, the greatest key first. -/
def matching (bound : Option κ) (rows : List ρ) : List ρ :=
  (rows.filter fun r => Below bound (key r)).insertionSort fun a b => key b ≤ key a

/-- The rows of one page, and whether there are more. -/
structure Page (ρ : Type) where
  items : List ρ
  more : Bool

def page (limit : Nat) (bound : Option κ) (rows : List ρ) : Page ρ :=
  ⟨(matching key bound rows).take limit, limit < (matching key bound rows).length⟩

/-- Keys in strictly descending order. -/
def Descending (rows : List ρ) : Prop := rows.Pairwise fun a b => key b < key a

section Page

variable {key} {limit : Nat} {bound : Option κ} {rows : List ρ} {r : ρ}

theorem mem_matching : r ∈ matching key bound rows ↔ r ∈ rows ∧ Below bound (key r) := by
  simp [matching, List.mem_insertionSort]

theorem descending_matching (hkeys : (rows.map key).Nodup) :
    Descending key (matching key bound rows) := by
  have hsorted : (matching key bound rows).Pairwise fun a b => key b ≤ key a := by
    have : Std.Total fun a b : ρ => key b ≤ key a := ⟨fun a b => le_total (key b) (key a)⟩
    have : IsTrans ρ fun a b => key b ≤ key a := ⟨fun _ _ _ hab hbc => hbc.trans hab⟩
    exact List.pairwise_insertionSort _ _
  have hperm : (matching key bound rows).Perm (rows.filter fun r => Below bound (key r)) :=
    List.perm_insertionSort _ _
  have hdistinct : (matching key bound rows).Pairwise fun a b => key a ≠ key b := by
    rw [← List.pairwise_map (f := key) (R := (· ≠ ·))]
    have hsub : ((rows.filter fun r => Below bound (key r)).map key).Sublist (rows.map key) :=
      List.filter_sublist.map key
    exact (hperm.map key).nodup_iff.mpr (hkeys.sublist hsub)
  refine (hsorted.and hdistinct).imp ?_
  rintro a b ⟨hle, hne⟩
  exact lt_of_le_of_ne hle hne.symm

theorem mem_items (h : r ∈ (page key limit bound rows).items) :
    r ∈ rows ∧ Below bound (key r) :=
  mem_matching.mp (List.mem_of_mem_take h)

theorem descending_items (hkeys : (rows.map key).Nodup) :
    Descending key (page key limit bound rows).items :=
  (descending_matching hkeys).sublist (List.take_sublist _ _)

/-- When there are more rows the page is full. -/
theorem length_items_of_more (h : (page key limit bound rows).more = true) :
    (page key limit bound rows).items.length = limit := by
  have hlt : limit < (matching key bound rows).length := of_decide_eq_true h
  simp only [page, List.length_take]
  omega

/-- A full page has a last row, and it is below all its other rows. -/
theorem last_of_more (hkeys : (rows.map key).Nodup) (hlimit : 0 < limit)
    (h : (page key limit bound rows).more = true) :
    ∃ last, (page key limit bound rows).items.getLast? = some last ∧
      last ∈ (page key limit bound rows).items ∧
      ∀ r ∈ (page key limit bound rows).items, key last ≤ key r := by
  have hlen := length_items_of_more h
  cases hitems : (page key limit bound rows).items using List.reverseRecOn with
  | nil =>
      rw [hitems, List.length_nil] at hlen
      omega
  | append_singleton rest last _ =>
      refine ⟨last, by simp, by simp, ?_⟩
      intro r hr
      have hdesc : Descending key (page key limit bound rows).items := descending_items hkeys
      rw [hitems, Descending, List.pairwise_append] at hdesc
      rcases List.mem_append.mp hr with hr | hr
      · exact (hdesc.2.2 r hr last (List.mem_singleton_self _)).le
      · rw [List.mem_singleton.mp hr]

/-- A row below the bound is on the page, or there are more rows and it is below the last. -/
theorem on_page_or_below (hkeys : (rows.map key).Nodup) (hr : r ∈ rows)
    (hbelow : Below bound (key r)) :
    r ∈ (page key limit bound rows).items ∨
      (page key limit bound rows).more = true ∧
        ∀ item ∈ (page key limit bound rows).items, key r < key item := by
  have hmem : r ∈ matching key bound rows := mem_matching.mpr ⟨hr, hbelow⟩
  have hdesc : Descending key (matching key bound rows) := descending_matching hkeys
  rw [← List.take_append_drop limit (matching key bound rows)] at hmem hdesc
  rcases List.mem_append.mp hmem with htake | hdrop
  · exact .inl htake
  · right
    constructor
    · have hlt : limit < (matching key bound rows).length := by
        by_contra hle
        rw [List.drop_of_length_le (by omega)] at hdrop
        cases hdrop
      exact decide_eq_true hlt
    · intro item hitem
      exact (List.pairwise_append.mp hdesc).2.2 item hitem r hdrop

theorem nodup_of_descending (h : Descending key rows) : rows.Nodup :=
  h.imp fun hlt heq => (heq ▸ hlt).ne rfl

/-- Below a row come the rows after it. -/
theorem matching_after {before after : List ρ} {last : ρ} (hkeys : (rows.map key).Nodup)
    (h : matching key none rows = before ++ last :: after) :
    matching key (some (key last)) rows = after := by
  have hall : Descending key (before ++ last :: after) := h ▸ descending_matching hkeys
  have hbelow : Descending key (matching key (some (key last)) rows) := descending_matching hkeys
  obtain ⟨-, hlast, hbefore⟩ := List.pairwise_append.mp hall
  obtain ⟨hlater, hafter⟩ := List.pairwise_cons.mp hlast
  have hsame : ∀ r, r ∈ matching key (some (key last)) rows ↔ r ∈ after := by
    intro r
    have hrow : r ∈ rows ↔ r ∈ before ++ last :: after := by
      rw [← h, mem_matching]
      exact ⟨fun hr => ⟨hr, fun _ hb => nomatch hb⟩, And.left⟩
    rw [mem_matching, hrow]
    constructor
    · rintro ⟨hr, hlt⟩
      have hlt : key r < key last := hlt _ rfl
      rcases List.mem_append.mp hr with hr | hr
      · exact absurd (hbefore r hr last List.mem_cons_self) hlt.not_gt
      · rcases List.mem_cons.mp hr with rfl | hr
        · exact absurd hlt (lt_irrefl _)
        · exact hr
    · intro hr
      refine ⟨List.mem_append_right _ (List.mem_cons_of_mem _ hr), fun b hb => ?_⟩
      obtain rfl := Option.some.inj hb
      exact hlater r hr
  have hperm := (List.perm_ext_iff_of_nodup (nodup_of_descending hbelow)
    (nodup_of_descending hafter)).mpr hsame
  apply hperm.eq_of_pairwise _ hbelow hafter
  intro a b _ _ hab hba
  exact absurd hab hba.not_gt

end Page

/-- A reader that has followed the pages so far: the bound of the next page, the rows it has
been given, and whether the last page said that there are no more. -/
structure Walk (ρ κ : Type) where
  bound : Option κ
  returned : List ρ
  ended : Bool

def Walk.start : Walk ρ κ := ⟨none, [], false⟩

/-- The next page, from the rows as they are now. -/
def Walk.fetch (s : Walk ρ κ) (limit : Nat) (rows : List ρ) : Walk ρ κ :=
  if s.ended then s
  else
    let p := page key limit s.bound rows
    ⟨if p.more then p.items.getLast?.map key else none, s.returned ++ p.items, !p.more⟩

/-- What has been returned descends, and the bound is below all of it. -/
structure Walk.Ordered (s : Walk ρ κ) : Prop where
  descending : Descending key s.returned
  bounded : s.ended = false → ∀ r ∈ s.returned, ∃ b ∈ s.bound, b ≤ key r

/-- A key that was there all the time has been returned, or is still to come. -/
def Walk.Covers (k : κ) (s : Walk ρ κ) : Prop :=
  k ∈ s.returned.map key ∨ (s.ended = false ∧ Below s.bound k)

variable {key} {s : Walk ρ κ} {limit : Nat} {rows : List ρ} {k : κ}

theorem Walk.ordered_start : Walk.Ordered key (Walk.start : Walk ρ κ) :=
  ⟨List.Pairwise.nil, fun _ _ hr => by cases hr⟩

theorem Walk.covers_start (k : κ) : Walk.Covers key k (Walk.start : Walk ρ κ) :=
  .inr ⟨rfl, fun _ hb => by cases hb⟩

theorem Walk.fetch_of_ended (h : s.ended = true) : s.fetch key limit rows = s := by
  simp [fetch, h]

theorem Walk.fetch_of_running (h : s.ended = false) : s.fetch key limit rows =
    ⟨if (page key limit s.bound rows).more then
        (page key limit s.bound rows).items.getLast?.map key else none,
      s.returned ++ (page key limit s.bound rows).items,
      !(page key limit s.bound rows).more⟩ := by
  simp [fetch, h]

theorem Walk.Ordered.fetch (h : s.Ordered key) (hkeys : (rows.map key).Nodup)
    (hlimit : 0 < limit) : (s.fetch key limit rows).Ordered key := by
  cases hended : s.ended with
  | true => rwa [fetch_of_ended hended]
  | false =>
      rw [fetch_of_running hended]
      have hnew : ∀ r ∈ s.returned, ∀ item ∈ (page key limit s.bound rows).items,
          key item < key r := by
        intro r hr item hitem
        obtain ⟨b, hb, hle⟩ := h.bounded hended r hr
        exact ((mem_items hitem).2 b hb).trans_le hle
      constructor
      · exact List.pairwise_append.mpr ⟨h.descending, descending_items hkeys, hnew⟩
      · intro hrunning r hr
        have hmore : (page key limit s.bound rows).more = true := by simpa using hrunning
        obtain ⟨last, hlast, hmem, hleast⟩ := last_of_more hkeys hlimit hmore
        refine ⟨key last, by simp [hmore, hlast], ?_⟩
        rcases List.mem_append.mp hr with hr | hr
        · exact (hnew r hr last hmem).le
        · exact hleast r hr

theorem Walk.Covers.fetch (h : s.Covers key k) (hkeys : (rows.map key).Nodup)
    (hlimit : 0 < limit) (hk : k ∈ rows.map key) : (s.fetch key limit rows).Covers key k := by
  cases hended : s.ended with
  | true => rwa [fetch_of_ended hended]
  | false =>
      rw [fetch_of_running hended]
      rcases h with hreturned | ⟨-, hbelow⟩
      · refine .inl ?_
        rw [List.map_append]
        exact List.mem_append_left _ hreturned
      · obtain ⟨r, hr, rfl⟩ := List.mem_map.mp hk
        rcases on_page_or_below hkeys hr hbelow with hitem | ⟨hmore, hleft⟩
        · refine .inl (List.mem_map_of_mem ?_)
          exact List.mem_append_right _ hitem
        · obtain ⟨last, hlast, hmem, -⟩ := last_of_more hkeys hlimit hmore
          refine .inr ⟨by simp [hmore], ?_⟩
          intro b hb
          rw [if_pos hmore, hlast] at hb
          cases hb
          exact hleft last hmem

/-- How many rows are still to come, while the walk goes on. -/
def Walk.left (key : ρ → κ) (s : Walk ρ κ) (rows : List ρ) : Nat :=
  ((rows.map key).filter fun k => Below s.bound k).length

theorem Walk.left_le_length : s.left key rows ≤ rows.length := by
  unfold left
  exact (List.length_filter_le _ _).trans (by rw [List.length_map])

/-- What goes away does not add to what is left. -/
theorem Walk.left_mono {rows' : List ρ} (hkeys : (rows'.map key).Nodup)
    (hsub : rows'.map key ⊆ rows.map key) : s.left key rows' ≤ s.left key rows := by
  unfold left
  apply (List.subperm_of_subset (hkeys.filter _) _).length_le
  intro k hk
  obtain ⟨hin, hbelow⟩ := List.mem_filter.mp hk
  exact List.mem_filter.mpr ⟨hsub hin, hbelow⟩

/-- A page that is not the last takes its rows off what is left. -/
theorem Walk.left_fetch (hrunning : s.ended = false) (hkeys : (rows.map key).Nodup)
    (hlimit : 0 < limit) (hmore : (s.fetch key limit rows).ended = false) :
    (s.fetch key limit rows).left key rows < s.left key rows := by
  rw [fetch_of_running hrunning] at hmore ⊢
  replace hmore : (page key limit s.bound rows).more = true := by simpa using hmore
  obtain ⟨last, hlast, hmem, -⟩ := last_of_more hkeys hlimit hmore
  obtain ⟨hrow, hbelow⟩ := mem_items hmem
  simp only [left, hmore, if_true, hlast, Option.map_some]
  have hnodup : (key last :: (rows.map key).filter fun k => Below (some (key last)) k).Nodup := by
    rw [List.nodup_cons]
    refine ⟨fun hin => ?_, hkeys.filter _⟩
    have hself : Below (some (key last)) (key last) := by simpa using (List.mem_filter.mp hin).2
    exact lt_irrefl _ (hself _ rfl)
  have hsubset : (key last :: (rows.map key).filter fun k => Below (some (key last)) k)
      ⊆ (rows.map key).filter fun k => Below s.bound k := by
    intro k hk
    rw [List.mem_filter, decide_eq_true_eq]
    rcases List.mem_cons.mp hk with rfl | hk
    · exact ⟨List.mem_map_of_mem hrow, hbelow⟩
    · obtain ⟨hin, hlt⟩ := List.mem_filter.mp hk
      rw [decide_eq_true_eq] at hlt
      exact ⟨hin, fun b hb => (hlt _ rfl).trans (hbelow b hb)⟩
  have hle := (List.subperm_of_subset hnodup hsubset).length_le
  rwa [List.length_cons] at hle

end Keyset
