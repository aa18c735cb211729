import FullStackHex.Api.Notes

/-!
A client that follows `next_cursor` of `list_notes` while notes are written: what
it has been given is a walk of `Library.Keyset`, so it sees every note that stays, in order and once.
-/

namespace FullStackHex

open Keyset

/-- A request for the next page: what has been written before it, and the `per_page` it asks
for. -/
abbrev Visit := List NoteCall × Int

structure Visitor where
  table : NoteTable
  cursor : Option String
  pages : List PaginatedNotes
  ended : Bool

def Visitor.start (table : NoteTable) : Visitor := ⟨table, none, [], false⟩

def Visitor.visit (userId : Uuid) (s : Visitor) (v : Visit) : Except ApiError Visitor := do
  let table := s.table.applyAll v.1
  if s.ended then return { s with table := table }
  let page ← listNotes table userId s.cursor v.2
  return ⟨table, page.nextCursor, s.pages ++ [page], !page.hasMore⟩

def Visitor.returned (s : Visitor) : List Note := s.pages.flatMap PaginatedNotes.items

/-- A note with this key is there whenever a page is read. -/
def PresentThroughout (userId : Uuid) (k : NoteKey) (table : NoteTable) : List Visit → Prop
  | [] => True
  | v :: rest =>
      let table' := table.applyAll v.1
      k ∈ (table'.rowsOf userId).map Note.key ∧ PresentThroughout userId k table' rest

def NoteCall.createsFor (userId : Uuid) : NoteCall → Bool
  | .create user _ _ _ _ => user = userId
  | _ => false

/-! ## The table -/

theorem NoteTable.key_nodup (table : NoteTable) (userId : Uuid) :
    ((table.rowsOf userId).map Note.key).Nodup := by
  have hids : (((table.rowsOf userId).map Note.key).map fun k => (ofLex k).2).Nodup := by
    rw [List.map_map]
    exact table.primaryKey.sublist (List.filter_sublist.map _)
  exact hids.of_map _

theorem NoteTable.key_rowsOf_update (table : NoteTable) (userId owner : Uuid) (value : Nat)
    (title body : String) (now : Timestamp) :
    ((table.update owner value title body now).rowsOf userId).map Note.key
      = (table.rowsOf userId).map Note.key := by
  have hkey : Note.key ∘ Note.rewrite owner value title body now = Note.key := by
    funext note
    obtain ⟨hid, -, hcreated⟩ := note.rewrite_same owner value title body now
    rw [Function.comp_apply, Note.key, hid, hcreated]
    rfl
  rw [rowsOf_update, List.map_map, hkey]

/-- Nothing but a creation by the user adds to the notes of the user. -/
theorem NoteTable.key_rowsOf_apply {table : NoteTable} {userId : Uuid} {call : NoteCall}
    (h : call.createsFor userId = false) :
    ((table.apply call).rowsOf userId).map Note.key ⊆ (table.rowsOf userId).map Note.key := by
  cases call with
  | create owner title body id now =>
      have hother : owner ≠ userId := by simpa [NoteCall.createsFor] using h
      have hsame : ((createNote table owner title body id now).2).rowsOf userId
          = table.rowsOf userId := by
        unfold createNote
        split
        · rfl
        · split
          · rfl
          · split
            · exact List.filter_cons_of_neg (by simpa using hother)
            · rfl
      rw [NoteTable.apply, hsame]
      exact List.Subset.refl _
  | update owner id title body now =>
      rw [NoteTable.apply]
      unfold updateNote
      split
      · exact List.Subset.refl _
      · split
        · exact List.Subset.refl _
        · exact List.Subset.refl _
        · split
          · exact List.Subset.refl _
          · dsimp only
            split
            · exact List.Subset.refl _
            · rw [key_rowsOf_update]
              exact List.Subset.refl _
  | delete owner id =>
      rw [NoteTable.apply]
      unfold deleteNote
      split
      · exact List.Subset.refl _
      · split
        · exact List.Subset.refl _
        · split
          · exact (((List.filter_sublist).filter _).map _).subset
          · exact List.Subset.refl _

theorem NoteTable.key_rowsOf_applyAll {table : NoteTable} {userId : Uuid} {calls : List NoteCall}
    (h : ∀ call ∈ calls, call.createsFor userId = false) :
    ((table.applyAll calls).rowsOf userId).map Note.key ⊆ (table.rowsOf userId).map Note.key := by
  induction calls generalizing table with
  | nil => exact List.Subset.refl _
  | cons call rest ih =>
      exact List.Subset.trans (ih fun c hc => h c (List.mem_cons_of_mem _ hc))
        (key_rowsOf_apply (h call (List.mem_cons_self ..)))

/-! ## The walk -/

/-- What the client knows, as a walk. -/
structure Visitor.Follows (s : Visitor) (a : Walk Note NoteKey) : Prop where
  cursor : s.ended = false → Cursor s.cursor a.bound
  returned : s.returned = a.returned.map Note.blank
  ended : s.ended = a.ended
  marked : ∀ p ∈ s.pages, p.hasMore = p.nextCursor.isSome
  ordered : a.Ordered Note.key

theorem Visitor.follows_start (table : NoteTable) : (Visitor.start table).Follows .start :=
  ⟨fun _ => .first, rfl, rfl, (fun _ hp => nomatch hp), Walk.ordered_start⟩

/-- One request is one page of the walk. -/
theorem Visitor.Follows.visit {s : Visitor} {a : Walk Note NoteKey}
    (h : s.Follows a) (userId : Uuid) (v : Visit) :
    ∃ s', s.visit userId v = .ok s' ∧ s'.table = s.table.applyAll v.1 ∧
      s'.Follows (a.fetch Note.key (pageLimit v.2) ((s.table.applyAll v.1).rowsOf userId)) := by
  cases hended : s.ended with
  | true =>
      have ha : a.ended = true := h.ended ▸ hended
      refine ⟨{ s with table := s.table.applyAll v.1 }, ?_, rfl, ?_⟩
      · simp only [Visitor.visit, hended, if_true]
        rfl
      · rw [Walk.fetch_of_ended ha]
        exact ⟨h.cursor, h.returned, h.ended, h.marked, h.ordered⟩
  | false =>
      have ha : a.ended = false := h.ended ▸ hended
      have hkeys := (s.table.applyAll v.1).key_nodup userId
      have hpage := listNotes_eq (s.table.applyAll v.1) userId v.2 (h.cursor hended)
      have hordered := h.ordered.fetch hkeys (pageLimit_pos v.2)
      let p := page Note.key (pageLimit v.2) a.bound ((s.table.applyAll v.1).rowsOf userId)
      let answer := PaginatedNotes.ofPage p v.2
      refine ⟨⟨s.table.applyAll v.1, answer.nextCursor, s.pages ++ [answer], !answer.hasMore⟩,
        ?_, rfl, ?_⟩
      · simp only [Visitor.visit, hended, if_false, Bool.false_eq_true, hpage]
        rfl
      · rw [Walk.fetch_of_running ha] at hordered ⊢
        refine ⟨?_, ?_, rfl, ?_, hordered⟩
        · intro hrunning
          have hmore : p.more = true := by simpa [answer, PaginatedNotes.ofPage] using hrunning
          obtain ⟨last, hlast, -, -⟩ := last_of_more hkeys (pageLimit_pos v.2) hmore
          simp only [answer, PaginatedNotes.ofPage, p, hmore, if_true, hlast, Option.map_some]
          exact .after last
        · have hreturned : s.returned = a.returned.map Note.blank := h.returned
          simp only [Visitor.returned, List.flatMap_append, List.map_append] at hreturned ⊢
          rw [hreturned]
          simp [answer, PaginatedNotes.ofPage, p]
        · intro q hq
          rcases List.mem_append.mp hq with hq | hq
          · exact h.marked q hq
          · rw [List.mem_singleton.mp hq]
            cases hmore : p.more with
            | false => simp [answer, PaginatedNotes.ofPage, hmore]
            | true =>
                obtain ⟨last, hlast, -, -⟩ := last_of_more hkeys (pageLimit_pos v.2) hmore
                simp [answer, PaginatedNotes.ofPage, hmore, p, hlast]

/-- The requests one after another, from where the client is. -/
def Visitor.visits (userId : Uuid) (s : Visitor) (vs : List Visit) : Except ApiError Visitor :=
  vs.foldlM (Visitor.visit userId) s

/-- No request fails, and what was there all the time stays covered. -/
theorem Visitor.Follows.visits {s : Visitor} {a : Walk Note NoteKey} (h : s.Follows a)
    (userId : Uuid) (vs : List Visit) :
    ∃ s' a', s.visits userId vs = .ok s' ∧ s'.Follows a' ∧
      ∀ k, PresentThroughout userId k s.table vs → a.Covers Note.key k →
        a'.Covers Note.key k := by
  induction vs generalizing s a with
  | nil => exact ⟨s, a, rfl, h, fun _ _ hk => hk⟩
  | cons v rest ih =>
      obtain ⟨s₁, hvisit, htable, hnext⟩ := h.visit userId v
      obtain ⟨s', a', hrest, hfollows, hcovers⟩ := ih hnext
      refine ⟨s', a', ?_, hfollows, ?_⟩
      · unfold Visitor.visits at hrest ⊢
        rw [List.foldlM_cons, hvisit]
        exact hrest
      · rintro k ⟨hnow, hlater⟩ hk
        rw [htable] at hcovers
        exact hcovers k hlater
          (hk.fetch (NoteTable.key_nodup _ userId) (pageLimit_pos v.2) hnow)

/-- A walk without new notes ends after as many requests as notes are left, and one more. -/
theorem Visitor.Follows.ends {userId : Uuid} {s s' : Visitor} {a : Walk Note NoteKey}
    (h : s.Follows a) {vs : List Visit}
    (hcalm : ∀ v ∈ vs, ∀ call ∈ v.1, call.createsFor userId = false)
    (hlong : s.ended = true ∨ a.left Note.key (s.table.rowsOf userId) < vs.length)
    (hrun : s.visits userId vs = .ok s') : s'.ended = true := by
  induction vs generalizing s a with
  | nil =>
      obtain rfl : s = s' := Except.ok.inj hrun
      rcases hlong with hended | hlong
      · exact hended
      · cases hlong
  | cons v rest ih =>
      obtain ⟨s₁, hvisit, htable, hnext⟩ := h.visit userId v
      have hrest : s₁.visits userId rest = .ok s' := by
        unfold Visitor.visits at hrun ⊢
        rw [List.foldlM_cons, hvisit] at hrun
        exact hrun
      refine ih hnext (fun v' hv' => hcalm v' (List.mem_cons_of_mem _ hv')) ?_ hrest
      rw [hnext.ended, htable]
      cases hended : (a.fetch Note.key (pageLimit v.2)
          ((s.table.applyAll v.1).rowsOf userId)).ended with
      | true => exact .inl rfl
      | false =>
          right
          have hrunning : a.ended = false := by
            by_contra htrue
            rw [Bool.not_eq_false] at htrue
            rw [Walk.fetch_of_ended htrue, htrue] at hended
            cases hended
          have hkeys := (s.table.applyAll v.1).key_nodup userId
          have hless := Walk.left_fetch hrunning hkeys (pageLimit_pos v.2) hended
          have hkept := Walk.left_mono (s := a) hkeys
            (NoteTable.key_rowsOf_applyAll (hcalm v (List.mem_cons_self ..)))
          have hlong : a.left Note.key (s.table.rowsOf userId) < (v :: rest).length := by
            rcases hlong with htrue | hlong
            · rw [h.ended, hrunning] at htrue
              cases htrue
            · exact hlong
          rw [List.length_cons] at hlong
          omega

/-- Following `next_cursor`, whatever is written meanwhile: no request fails, every page says that
there are more exactly when it gives a cursor, the notes come in strictly descending order of
time and id, a note that is there at every request has come exactly once when the last page
is reached, and once no more notes are created it is reached within one request more than
the user has notes. -/
theorem notes_walk (userId : Uuid) (table : NoteTable) (vs : List Visit) :
    ∃ s, (Visitor.start table).visits userId vs = .ok s ∧
      (∀ p ∈ s.pages, p.hasMore = p.nextCursor.isSome) ∧
      (s.returned.Pairwise fun note later => later.key < note.key) ∧
      (s.ended = true → ∀ k, PresentThroughout userId k table vs →
        (s.returned.map Note.key).count k = 1) ∧
      ∀ before after s₁, vs = before ++ after →
        (Visitor.start table).visits userId before = .ok s₁ →
        (∀ v ∈ after, ∀ call ∈ v.1, call.createsFor userId = false) →
        (s₁.table.rowsOf userId).length < after.length → s.ended = true := by
  obtain ⟨s, a, hrun, hfollows, hcovers⟩ :=
    (Visitor.follows_start table).visits userId vs
  have hkeys : s.returned.map Note.key = a.returned.map Note.key := by
    rw [hfollows.returned, List.map_map]
    rfl
  have hordered : s.returned.Pairwise fun note later => later.key < note.key := by
    rw [← List.pairwise_map (f := Note.key) (R := fun k later => later < k), hkeys,
      List.pairwise_map]
    exact hfollows.ordered.descending
  refine ⟨s, hrun, hfollows.marked, hordered, ?_, ?_⟩
  · intro hended k hpresent
    have hreturned : k ∈ s.returned.map Note.key := by
      rcases hcovers k hpresent (Walk.covers_start k) with hreturned | ⟨hrunning, -⟩
      · rwa [hkeys]
      · rw [← hfollows.ended, hended] at hrunning
        cases hrunning
    have hnodup : (s.returned.map Note.key).Nodup := by
      rw [List.Nodup, List.pairwise_map]
      exact hordered.imp fun hlt => hlt.ne'
    exact List.count_eq_one_of_mem hnodup hreturned
  · rintro before after s₁ rfl hbefore hcalm hlong
    obtain ⟨s₂, a₁, hfirst, hfollows₁, -⟩ :=
      (Visitor.follows_start table).visits userId before
    obtain rfl : s₂ = s₁ := Except.ok.inj (hfirst.symm.trans hbefore)
    have hsecond : s₂.visits userId after = .ok s := by
      unfold Visitor.visits at hrun hbefore ⊢
      rw [List.foldlM_append, hbefore] at hrun
      exact hrun
    exact hfollows₁.ends hcalm (.inr (Walk.left_le_length.trans_lt hlong)) hsecond

end FullStackHex
