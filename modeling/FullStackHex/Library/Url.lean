import FullStackHex.Library.Percent

/-!
Absolute URLs with an http or https scheme, as the URL standard reads them: the
part after the origin, which is a path, a query and a fragment. The percent-encode
sets are parameters, as editions of the standard differ in them.
-/

namespace Url

open Codec Percent

/-- The bytes that the percent-encode sets leave as they are. -/
structure EncodeSets where
  path : UInt8 → Bool
  query : UInt8 → Bool
  fragment : UInt8 → Bool
  visible : ∀ b, (path b || query b || fragment b) = true → 32 < b.toNat ∧ b.toNat < 127
  pathEnd : path (byte '?') = false ∧ path (byte '#') = false
  queryEnd : query (byte '#') = false
  common : ∀ b, (unreserved b || b == byte '%' || b == byte '=' || b == byte '&') = true →
    (path b && query b && fragment b) = true

def blank (b : UInt8) : Bool := decide (b.toNat ≤ 32)

def isBreak (b : UInt8) : Bool := b.toNat == 9 || b.toNat == 10 || b.toNat == 13

/-- Controls and spaces at the end go, tabs and line breaks go everywhere. -/
def clean (text : Bytes) : Bytes := (text.rdropWhile blank).filter fun b => !isBreak b

def isStop (b : UInt8) : Bool := b == byte '?' || b == byte '#'

/-- A backslash is a slash. -/
def isSlash (b : UInt8) : Bool := b == byte '/' || b == byte '\\'

/-- `.`, also written with %2e. -/
def singleDot (s : Bytes) : Bool := decode s == [byte '.']

/-- `..`, any dot of it also written with %2e. -/
def doubleDot (s : Bytes) : Bool := decode s == [byte '.', byte '.']

/-- The path that a list of segments leads to. -/
def climb (dirs : List Bytes) : List Bytes → List Bytes
  | [] => dirs
  | [s] =>
      if doubleDot s then dirs.dropLast ++ [[]]
      else if singleDot s then dirs ++ [[]]
      else dirs ++ [s]
  | s :: next :: rest =>
      if doubleDot s then climb dirs.dropLast (next :: rest)
      else if singleDot s then climb dirs (next :: rest)
      else climb (dirs ++ [s]) (next :: rest)

def queryOf (sets : EncodeSets) : Bytes → Option Bytes
  | [] => none
  | b :: rest =>
      if b = byte '?' then some (encode sets.query (rest.takeWhile fun b => b ≠ byte '#')) else none

def fragmentOf (sets : EncodeSets) (rest : Bytes) : Option Bytes :=
  match rest.dropWhile fun b => b ≠ byte '#' with
  | [] => none
  | _ :: fragment => some (encode sets.fragment fragment)

structure Parsed where
  segments : List Bytes
  query : Option Bytes
  fragment : Option Bytes
  deriving DecidableEq

/-- The segments of a path as they are written, from its first slash to its end. -/
def segmentsOf (text : Bytes) : List Bytes :=
  (text.takeWhile fun b => !isStop b).tail.splitOnP isSlash

/-- What stands after the origin. It begins with a slash. -/
def parse (sets : EncodeSets) (text : Bytes) : Parsed :=
  let text := clean text
  let rest := text.dropWhile fun b => !isStop b
  ⟨(climb [] (segmentsOf text)).map (encode sets.path), queryOf sets rest, fragmentOf sets rest⟩

def pathText (segments : List Bytes) : Bytes := segments.flatMap fun s => byte '/' :: s

def Parsed.path (u : Parsed) : Bytes := pathText u.segments

def Parsed.text (u : Parsed) : Bytes :=
  u.path ++ u.query.elim [] (byte '?' :: ·) ++ u.fragment.elim [] (byte '#' :: ·)

/-- Segments that are read back as they are. -/
structure Settled (sets : EncodeSets) (segments : List Bytes) : Prop where
  nonempty : segments ≠ []
  bytes : ∀ s ∈ segments, ∀ b ∈ s, sets.path b = true ∧ isSlash b = false
  dots : ∀ s ∈ segments, doubleDot s = false ∧ singleDot s = false

variable {sets : EncodeSets} {segments : List Bytes} {dirs : List Bytes} {s rest text : Bytes}

theorem EncodeSets.kept_common (sets : EncodeSets) {b : UInt8}
    (h : (unreserved b || b == byte '%' || b == byte '=' || b == byte '&') = true) :
    sets.path b = true ∧ sets.query b = true := by
  have hcommon := sets.common b h
  simp only [Bool.and_eq_true] at hcommon
  exact hcommon.1

theorem EncodeSets.idempotent_path (sets : EncodeSets) : Idempotent sets.path := by
  constructor
  · exact (sets.kept_common (by decide)).1
  · intro b hb
    exact (sets.kept_common (by rw [unreserved_of_hexVal b hb]; rfl)).1

theorem EncodeSets.idempotent_query (sets : EncodeSets) : Idempotent sets.query := by
  constructor
  · exact (sets.kept_common (by decide)).2
  · intro b hb
    exact (sets.kept_common (by rw [unreserved_of_hexVal b hb]; rfl)).2

/-! ## The path -/

theorem climb_ne_nil (h : segments ≠ []) : climb dirs segments ≠ [] := by
  induction segments generalizing dirs with
  | nil => exact absurd rfl h
  | cons s rest ih =>
      cases rest with
      | nil =>
          unfold climb
          split
          · simp
          · split <;> simp
      | cons next rest =>
          unfold climb
          split
          · exact ih (List.cons_ne_nil _ _)
          · split
            · exact ih (List.cons_ne_nil _ _)
            · exact ih (List.cons_ne_nil _ _)

/-- What a climb leaves was there before or is no dot segment. -/
theorem mem_climb (h : s ∈ climb dirs segments) :
    s ∈ dirs ∨ s = [] ∨ s ∈ segments ∧ doubleDot s = false ∧ singleDot s = false := by
  induction segments generalizing dirs with
  | nil => exact .inl h
  | cons first rest ih =>
      cases rest with
      | nil =>
          unfold climb at h
          split at h
          · rcases List.mem_append.mp h with h | h
            · exact .inl (List.mem_of_mem_dropLast h)
            · exact .inr (.inl (List.mem_singleton.mp h))
          · split at h
            · rcases List.mem_append.mp h with h | h
              · exact .inl h
              · exact .inr (.inl (List.mem_singleton.mp h))
            · rename_i hdouble hsingle
              rcases List.mem_append.mp h with h | h
              · exact .inl h
              · obtain rfl := List.mem_singleton.mp h
                exact .inr (.inr ⟨List.mem_singleton.mpr rfl, by simpa using hdouble,
                  by simpa using hsingle⟩)
      | cons next rest =>
          unfold climb at h
          have hmore : ∀ {dirs}, s ∈ climb dirs (next :: rest) →
              s ∈ dirs ∨ s = [] ∨
                s ∈ first :: next :: rest ∧ doubleDot s = false ∧ singleDot s = false := by
            intro dirs h
            rcases ih h with h | h | ⟨h, hdots⟩
            · exact .inl h
            · exact .inr (.inl h)
            · exact .inr (.inr ⟨List.mem_cons_of_mem _ h, hdots⟩)
          split at h
          · rcases hmore h with h | h
            · exact .inl (List.mem_of_mem_dropLast h)
            · exact .inr h
          · split at h
            · exact hmore h
            · rename_i hdouble hsingle
              rcases hmore h with h | h
              · rcases List.mem_append.mp h with h | h
                · exact .inl h
                · obtain rfl := List.mem_singleton.mp h
                  exact .inr (.inr ⟨List.mem_cons_self .., by simpa using hdouble,
                    by simpa using hsingle⟩)
              · exact .inr h

theorem climb_of_plain (hne : segments ≠ [])
    (h : ∀ s ∈ segments, doubleDot s = false ∧ singleDot s = false) :
    climb dirs segments = dirs ++ segments := by
  induction segments generalizing dirs with
  | nil => exact absurd rfl hne
  | cons s rest ih =>
      obtain ⟨hdouble, hsingle⟩ := h s (List.mem_cons_self ..)
      cases rest with
      | nil =>
          unfold climb
          rw [if_neg (by simp [hdouble]), if_neg (by simp [hsingle])]
      | cons next rest =>
          unfold climb
          rw [if_neg (by simp [hdouble]), if_neg (by simp [hsingle]),
            ih (List.cons_ne_nil _ _) fun t ht => h t (List.mem_cons_of_mem _ ht),
            List.append_assoc, List.singleton_append]

/-- Segments that are no dots are gone through one by one. -/
theorem climb_append (hne : segments ≠ []) {home : List Bytes}
    (h : ∀ s ∈ home, doubleDot s = false ∧ singleDot s = false) :
    climb dirs (home ++ segments) = climb (dirs ++ home) segments := by
  induction home generalizing dirs with
  | nil => simp
  | cons s rest ih =>
      obtain ⟨hdouble, hsingle⟩ := h s (List.mem_cons_self ..)
      have hrest : ∃ next more, rest ++ segments = next :: more :=
        List.exists_cons_of_ne_nil (by simp [hne])
      obtain ⟨next, more, hmore⟩ := hrest
      have hstep : climb dirs (s :: next :: more) = climb (dirs ++ [s]) (next :: more) := by
        conv_lhs => unfold climb
        rw [if_neg (by simp [hdouble]), if_neg (by simp [hsingle])]
      rw [List.cons_append, hmore, hstep, ← hmore,
        ih fun t ht => h t (List.mem_cons_of_mem _ ht), List.append_assoc, List.singleton_append]

theorem mem_splitOnP {p : UInt8 → Bool} {piece : Bytes} (h : piece ∈ text.splitOnP p) :
    ∀ b ∈ piece, b ∈ text ∧ p b = false := by
  induction text generalizing piece with
  | nil =>
      rw [List.splitOnP_nil, List.mem_singleton] at h
      subst h
      exact fun b hb => absurd hb List.not_mem_nil
  | cons a text ih =>
      rw [List.splitOnP_cons_eq_if_modifyHead] at h
      split at h
      · rcases List.mem_cons.mp h with rfl | h
        · exact fun b hb => absurd hb List.not_mem_nil
        · exact fun b hb => ⟨List.mem_cons_of_mem _ (ih h b hb).1, (ih h b hb).2⟩
      · rename_i ha
        cases hpieces : text.splitOnP p with
        | nil => exact absurd hpieces (List.splitOnP_ne_nil p text)
        | cons first others =>
            rw [hpieces] at h ih
            rcases List.mem_cons.mp h with rfl | h
            · intro b hb
              rcases List.mem_cons.mp hb with rfl | hb
              · exact ⟨List.mem_cons_self .., by simpa using ha⟩
              · have := ih (List.mem_cons_self ..) b hb
                exact ⟨List.mem_cons_of_mem _ this.1, this.2⟩
            · intro b hb
              have := ih (List.mem_cons_of_mem _ h) b hb
              exact ⟨List.mem_cons_of_mem _ this.1, this.2⟩

theorem parse_settled (sets : EncodeSets) (text : Bytes) :
    Settled sets (parse sets text).segments := by
  have hidempotent := sets.idempotent_path
  unfold parse
  dsimp only
  constructor
  · rw [ne_eq, List.map_eq_nil_iff]
    exact climb_ne_nil (List.splitOnP_ne_nil _ _)
  · intro s hs b hb
    obtain ⟨raw, hraw, rfl⟩ := List.mem_map.mp hs
    refine ⟨hidempotent.mem hb, ?_⟩
    rcases mem_encode hb with ⟨-, hmem⟩ | rfl | ⟨n, hn, rfl⟩
    · rcases mem_climb hraw with h | rfl | ⟨h, -⟩
      · cases h
      · cases hmem
      · exact (mem_splitOnP h b hmem).2
    · decide
    · have hall : ∀ n < 16, isSlash (hexUpper n) = false := by decide
      exact hall n hn
  · intro s hs
    obtain ⟨raw, hraw, rfl⟩ := List.mem_map.mp hs
    unfold doubleDot singleDot
    rw [hidempotent.decode_encode]
    rcases mem_climb hraw with h | rfl | ⟨-, h⟩
    · cases h
    · decide
    · exact h

theorem rdropWhile_append_of_last {p : UInt8 → Bool} {b : UInt8} (hb : p b = false)
    (xs ys : Bytes) : (xs ++ b :: ys).rdropWhile p = xs ++ b :: ys.rdropWhile p := by
  induction ys using List.reverseRecOn with
  | nil => rw [List.rdropWhile_concat_neg _ _ _ (by simp [hb]), List.rdropWhile_nil]
  | append_singleton ys y ih =>
      by_cases hy : p y = true
      · rw [List.rdropWhile_concat_pos _ _ _ hy, ← ih, ← List.cons_append, ← List.append_assoc,
          List.rdropWhile_concat_pos _ _ _ hy]
      · rw [List.rdropWhile_concat_neg _ _ _ hy, ← List.cons_append, ← List.append_assoc,
          List.rdropWhile_concat_neg _ _ _ hy]

/-- A text that ends in a visible byte is not shortened by what follows it. -/
theorem clean_append {b : UInt8} (hb : 32 < b.toNat) (hall : ∀ a ∈ s, 32 < a.toNat) (rest : Bytes) :
    clean (s ++ b :: rest) = s ++ b :: clean rest := by
  have hkeep : ∀ a : UInt8, 32 < a.toNat → isBreak a = false := by
    intro a ha
    simp only [isBreak, Bool.or_eq_false_iff, beq_eq_false_iff_ne]
    omega
  unfold clean
  rw [rdropWhile_append_of_last (by simp [blank]; omega), List.filter_append, List.filter_cons,
    if_pos (by simp [hkeep b hb]), List.filter_eq_self.mpr]
  intro a ha
  simp [hkeep a (hall a ha)]

/-- A text of visible bytes stays. -/
theorem clean_eq_self (h : ∀ b ∈ text, 32 < b.toNat) : clean text = text := by
  rcases List.eq_nil_or_concat text with rfl | ⟨front, last, rfl⟩
  · rfl
  · rw [List.concat_eq_append] at h ⊢
    have hlast := h last (by simp)
    rw [clean_append hlast (fun b hb => h b (List.mem_append_left _ hb))]
    rfl

/-- Without a question mark and a hash there is a path only. -/
theorem parse_pathOnly (sets : EncodeSets) (h : ∀ b ∈ text, isStop b = false) :
    (parse sets text).query = none ∧ (parse sets text).fragment = none := by
  have hclean : ∀ b ∈ clean text, (!isStop b) = true := by
    intro b hb
    have hmem := (List.rdropWhile_prefix blank text).subset (List.mem_filter.mp hb).1
    rw [h b hmem]
    rfl
  unfold parse
  dsimp only
  rw [List.dropWhile_eq_nil_iff.mpr hclean]
  exact ⟨rfl, rfl⟩

/-! ## Reading a text again -/

theorem isStop_visible {b : UInt8} (h : isStop b = true) : 32 < b.toNat := by
  rw [isStop, Bool.or_eq_true, beq_iff_eq, beq_iff_eq] at h
  rcases h with rfl | rfl <;> decide

/-- What follows a path: nothing, a query or a fragment. -/
def Follows (rest : Bytes) : Prop := ∀ b ∈ rest.head?, isStop b = true

theorem Follows.clean (h : Follows rest) : Follows (clean rest) := by
  cases rest with
  | nil => exact h
  | cons b r =>
      have hb : isStop b = true := h b rfl
      have hclean := clean_append (s := []) (isStop_visible hb) (by simp) r
      rw [List.nil_append, List.nil_append] at hclean
      rw [hclean]
      exact fun a ha => Option.mem_some.mp ha ▸ hb

theorem Follows.takeWhile (h : Follows rest) : (rest.takeWhile fun b => !isStop b) = [] := by
  cases rest with
  | nil => rfl
  | cons b r =>
      have hb : isStop b = true := h b rfl
      rw [List.takeWhile_cons_of_neg (by simp [hb])]

theorem Follows.dropWhile (h : Follows rest) : (rest.dropWhile fun b => !isStop b) = rest := by
  cases rest with
  | nil => rfl
  | cons b r =>
      have hb : isStop b = true := h b rfl
      rw [List.dropWhile_cons_of_neg (by simp [hb])]

theorem Settled.visible (h : Settled sets segments) :
    ∀ b ∈ pathText segments, 32 < b.toNat ∧ b.toNat < 127 ∧ isStop b = false := by
  intro b hb
  obtain ⟨s, hs, hb⟩ := List.mem_flatMap.mp hb
  rcases List.mem_cons.mp hb with rfl | hb
  · decide
  · have hpath := (h.bytes s hs b hb).1
    have hvisible := sets.visible b (by rw [hpath]; rfl)
    refine ⟨hvisible.1, hvisible.2, ?_⟩
    rw [isStop, Bool.or_eq_false_iff, beq_eq_false_iff_ne, beq_eq_false_iff_ne]
    constructor
    · rintro rfl
      rw [sets.pathEnd.1] at hpath
      cases hpath
    · rintro rfl
      rw [sets.pathEnd.2] at hpath
      cases hpath

theorem queryOf_eq_some {q : Bytes} (h : queryOf sets rest = some q) :
    ∃ after, rest = byte '?' :: after ∧
      q = encode sets.query (after.takeWhile fun b => b ≠ byte '#') := by
  cases rest with
  | nil => cases h
  | cons b after =>
      by_cases hb : b = byte '?'
      · rw [queryOf, if_pos hb] at h
        exact ⟨after, by rw [hb], (Option.some.inj h).symm⟩
      · rw [queryOf, if_neg hb] at h
        cases h

theorem visible_query {q : Bytes} (h : (parse sets text).query = some q) :
    ∀ b ∈ q, 32 < b.toNat ∧ b.toNat < 127 := by
  intro b hb
  obtain ⟨after, -, rfl⟩ := queryOf_eq_some h
  have hkeep := sets.idempotent_query.mem hb
  exact sets.visible b (by rw [hkeep]; simp)

theorem splitOnP_pathText (hne : segments ≠ [])
    (h : ∀ s ∈ segments, ∀ b ∈ s, isSlash b = false) :
    (pathText segments).tail.splitOnP isSlash = segments := by
  cases segments with
  | nil => exact absurd rfl hne
  | cons s rest =>
      have htail : (pathText (s :: rest)).tail = s ++ pathText rest := by
        unfold pathText
        rw [List.flatMap_cons]
        rfl
      rw [htail]
      clear hne htail
      induction rest generalizing s with
      | nil =>
          have hs := h s (List.mem_cons_self ..)
          unfold pathText
          rw [List.flatMap_nil, List.append_nil, List.splitOnP_eq_singleton hs]
      | cons next more ih =>
          have hs := h s (List.mem_cons_self ..)
          have hcons : pathText (next :: more) = byte '/' :: (next ++ pathText more) := by
            unfold pathText
            rw [List.flatMap_cons, List.cons_append]
          rw [hcons, List.splitOnP_append_cons_of_forall_mem hs _ (by decide),
            ih next fun t ht => h t (List.mem_cons_of_mem _ ht)]

/-- A settled path is read back, whatever follows it. -/
theorem parse_pathText (h : Settled sets segments) (hrest : Follows rest) :
    parse sets (pathText segments ++ rest)
      = ⟨segments, queryOf sets (clean rest), fragmentOf sets (clean rest)⟩ := by
  have hvisible := h.visible
  have hclean : clean (pathText segments ++ rest) = pathText segments ++ clean rest := by
    rcases List.eq_nil_or_concat (pathText segments) with hnil | ⟨front, last, hlast⟩
    · cases segments with
      | nil => exact absurd rfl h.nonempty
      | cons s more => cases hnil
    · rw [hlast] at hvisible ⊢
      rw [List.concat_eq_append, List.append_assoc, List.singleton_append, List.append_assoc,
        List.singleton_append]
      rw [List.concat_eq_append] at hvisible
      apply clean_append
      · exact (hvisible last (by simp)).1
      · exact fun a ha => (hvisible a (List.mem_append_left _ ha)).1
  have hgo : ∀ b ∈ pathText segments, (!isStop b) = true := by
    intro b hb
    rw [(hvisible b hb).2.2]
    rfl
  have htake : ((pathText segments ++ clean rest).takeWhile fun b => !isStop b)
      = pathText segments := by
    rw [List.takeWhile_append_of_pos hgo, hrest.clean.takeWhile, List.append_nil]
  have hdrop : ((pathText segments ++ clean rest).dropWhile fun b => !isStop b) = clean rest := by
    rw [List.dropWhile_append_of_pos hgo, hrest.clean.dropWhile]
  have hsegments : (climb [] segments).map (encode sets.path) = segments := by
    rw [climb_of_plain h.nonempty h.dots, List.nil_append]
    conv_rhs => rw [← List.map_id segments]
    exact List.map_congr_left fun s hs => encode_eq_self fun b hb => (h.bytes s hs b hb).1
  unfold parse segmentsOf
  dsimp only
  rw [hclean, htake, hdrop, splitOnP_pathText h.nonempty fun s hs b hb => (h.bytes s hs b hb).2,
    hsegments]

/-- A query of kept bytes behind a settled path. -/
theorem parse_query {q : Bytes} (h : Settled sets segments) (hq : ∀ b ∈ q, sets.query b = true) :
    parse sets (pathText segments ++ byte '?' :: q) = ⟨segments, some q, none⟩ := by
  have hvisible : ∀ b ∈ q, 32 < b.toNat := by
    intro b hb
    have hkeep := hq b hb
    exact (sets.visible b (by rw [hkeep]; simp)).1
  have hend : ∀ b ∈ q, b ≠ byte '#' := by
    rintro b hb rfl
    have hkeep := hq _ hb
    rw [sets.queryEnd] at hkeep
    cases hkeep
  have hclean : clean (byte '?' :: q) = byte '?' :: q := by
    have hall : ∀ b ∈ byte '?' :: q, 32 < b.toNat := by
      intro b hb
      rcases List.mem_cons.mp hb with rfl | hb
      · decide
      · exact hvisible b hb
    exact clean_eq_self hall
  have hfollows : Follows (byte '?' :: q) := by
    intro b hb
    obtain rfl := Option.mem_some.mp hb
    decide
  have htake : (q.takeWhile fun b => b ≠ byte '#') = q :=
    List.takeWhile_eq_self_iff.mpr fun b hb => by simpa using hend b hb
  have hdrop : ((byte '?' :: q).dropWhile fun b => b ≠ byte '#') = [] := by
    apply List.dropWhile_eq_nil_iff.mpr
    intro b hb
    rcases List.mem_cons.mp hb with rfl | hb
    · decide
    · simpa using hend b hb
  rw [parse_pathText h hfollows, hclean, queryOf, if_pos rfl, htake, encode_eq_self hq, fragmentOf,
    hdrop]

/-- The first slash stands at the same place in both. -/
theorem prefix_of_slash {d x y : Bytes} (hd : byte '/' ∉ d) (hs : byte '/' ∉ s)
    (hy : y = [] ∨ ∃ z, y = byte '/' :: z) (h : d ++ byte '/' :: x <+: s ++ y) :
    d = s ∧ byte '/' :: x <+: y := by
  obtain ⟨t, ht⟩ := h
  rcases hy with rfl | ⟨z, rfl⟩
  · rw [List.append_nil] at ht
    exact absurd (by rw [← ht]; simp) hs
  · rw [List.append_assoc, List.cons_append] at ht
    obtain ⟨hsame, hrest⟩ := append_separator_inj hd hs ht
    exact ⟨hsame, t, by rw [List.cons_append, hrest]⟩

/-- The path is below a directory exactly when its segments continue those of the directory. -/
theorem below_iff {home : List Bytes} (hhome : ∀ s ∈ home, ∀ b ∈ s, isSlash b = false)
    (h : ∀ s ∈ segments, ∀ b ∈ s, isSlash b = false) :
    pathText home ++ [byte '/'] <+: pathText segments ↔
      ∃ s rest, segments = home ++ s :: rest := by
  have hslash : ∀ s : Bytes, (∀ b ∈ s, isSlash b = false) → byte '/' ∉ s := by
    intro s hs hmem
    exact absurd (hs _ hmem) (by decide)
  have hcons : ∀ t more, pathText (t :: more) = byte '/' :: (t ++ pathText more) := by
    intro t more
    unfold pathText
    rw [List.flatMap_cons, List.cons_append]
  induction home generalizing segments with
  | nil =>
      cases segments with
      | nil => simp [pathText]
      | cons s rest => simp [pathText]
  | cons d home ih =>
      cases segments with
      | nil => simp [pathText]
      | cons s rest =>
          have ih := @ih rest (fun t ht => hhome t (List.mem_cons_of_mem _ ht))
            fun t ht => h t (List.mem_cons_of_mem _ ht)
          have hopen : ∃ x, pathText home ++ [byte '/'] = byte '/' :: x := by
            cases home with
            | nil => exact ⟨[], rfl⟩
            | cons t more => exact ⟨_, by rw [hcons, List.cons_append]⟩
          have hmore : pathText rest = [] ∨ ∃ z, pathText rest = byte '/' :: z := by
            cases rest with
            | nil => exact .inl rfl
            | cons t more => exact .inr ⟨_, hcons t more⟩
          rw [hcons, hcons, List.cons_append, List.cons_prefix_cons, List.append_assoc]
          simp only [true_and, List.cons_append, List.cons.injEq]
          constructor
          · intro hprefix
            obtain ⟨x, hx⟩ := hopen
            rw [hx] at hprefix
            obtain ⟨hsame, hbelow⟩ := prefix_of_slash
              (hslash d (hhome d (List.mem_cons_self ..))) (hslash s (h s (List.mem_cons_self ..)))
              hmore hprefix
            rw [← hx] at hbelow
            obtain ⟨next, others, hothers⟩ := ih.mp hbelow
            exact ⟨next, others, hsame.symm, hothers⟩
          · rintro ⟨next, others, rfl, hothers⟩
            exact List.prefix_append_right_inj _ |>.mpr (ih.mpr ⟨next, others, hothers⟩)

/-! ## Ways from a directory -/

/-- Where segments lead: so many levels up from where they start, and then down. -/
structure Way where
  up : Nat
  down : List Bytes
  deriving DecidableEq

namespace Way

def parent (w : Way) : Way := if w.down = [] then ⟨w.up + 1, []⟩ else ⟨w.up, w.down.dropLast⟩

def child (w : Way) (s : Bytes) : Way := ⟨w.up, w.down ++ [s]⟩

def go (w : Way) : List Bytes → Way
  | [] => w
  | [s] =>
      if doubleDot s then w.parent.child []
      else if singleDot s then w.child []
      else w.child s
  | s :: next :: rest =>
      if doubleDot s then w.parent.go (next :: rest)
      else if singleDot s then w.go (next :: rest)
      else (w.child s).go (next :: rest)

/-- The directory that a way leads to. -/
def reach (home : List Bytes) (w : Way) : List Bytes :=
  home.take (home.length - w.up) ++ w.down

/-- The way goes down again where it has gone up, and then on. -/
def Returns (home : List Bytes) (w : Way) : Prop :=
  home.drop (home.length - w.up) <+: w.down ∧ w.down.length ≠ (home.drop (home.length - w.up)).length

instance (home : List Bytes) (w : Way) : Decidable (w.Returns home) :=
  inferInstanceAs (Decidable (_ ∧ _))

variable {home : List Bytes} {w : Way}

theorem reach_child (s : Bytes) : (w.child s).reach home = w.reach home ++ [s] :=
  (List.append_assoc _ _ _).symm

theorem reach_parent : w.parent.reach home = (w.reach home).dropLast := by
  unfold parent reach
  split_ifs with hdown
  · rw [hdown, List.append_nil, List.append_nil, List.dropLast_eq_take, List.take_take,
      List.length_take]
    dsimp only
    congr 1
    omega
  · rw [List.dropLast_append_of_ne_nil hdown]

theorem climb_reach (segments : List Bytes) :
    climb (w.reach home) segments = (w.go segments).reach home := by
  induction segments generalizing w with
  | nil => rfl
  | cons s rest ih =>
      cases rest with
      | nil =>
          unfold climb go
          split_ifs
          · rw [reach_child, reach_parent]
          · rw [reach_child]
          · rw [reach_child]
      | cons next rest =>
          unfold climb go
          split_ifs
          · rw [← reach_parent, ih]
          · rw [ih]
          · rw [← reach_child, ih]

theorem returns_iff : w.Returns home ↔ ∃ s rest, w.reach home = home ++ s :: rest := by
  have hsplit := List.take_append_drop (home.length - w.up) home
  unfold Returns reach
  constructor
  · rintro ⟨⟨after, hafter⟩, hlength⟩
    cases after with
    | nil =>
        rw [List.append_nil] at hafter
        rw [hafter] at hlength
        exact absurd rfl hlength
    | cons s rest =>
        refine ⟨s, rest, ?_⟩
        rw [← hafter, ← List.append_assoc, hsplit]
  · rintro ⟨s, rest, heq⟩
    have hdown : w.down = home.drop (home.length - w.up) ++ s :: rest := by
      conv_rhs at heq => rw [← hsplit]
      rw [List.append_assoc] at heq
      exact List.append_cancel_left heq
    refine ⟨⟨s :: rest, hdown.symm⟩, ?_⟩
    rw [hdown, List.length_append, List.length_cons]
    omega

end Way

/-- The segments of a text that follows a directory and a slash. -/
def furtherSegments (text : Bytes) : List Bytes :=
  ((clean text).takeWhile fun b => !isStop b).splitOnP isSlash

/-- Directories that are read as they are written. -/
structure Home (home : List Bytes) : Prop where
  bytes : ∀ s ∈ home, ∀ b ∈ s, unreserved b = true
  dots : ∀ s ∈ home, doubleDot s = false ∧ singleDot s = false

section Home

variable {home : List Bytes}

theorem eq_of_map_encode {keep : UInt8 → Bool} {front : List Bytes}
    (h : front.map (encode keep) = home) (hplain : ∀ s ∈ home, byte '%' ∉ s) : front = home := by
  induction front generalizing home with
  | nil => exact h
  | cons s rest ih =>
      cases home with
      | nil => exact nomatch h
      | cons d home =>
          obtain ⟨hs, hrest⟩ := List.cons.inj h
          rw [eq_of_encode hs (hplain d List.mem_cons_self),
            ih hrest fun t ht => hplain t (List.mem_cons_of_mem _ ht)]

theorem unreserved_facts {b : UInt8} (h : unreserved b = true) :
    32 < b.toNat ∧ isStop b = false ∧ isSlash b = false ∧ b ≠ byte '%' := by
  have hall : ∀ n < 256, unreserved (UInt8.ofNat n) = true →
      32 < n ∧ isStop (UInt8.ofNat n) = false ∧ isSlash (UInt8.ofNat n) = false ∧
        UInt8.ofNat n ≠ byte '%' := by decide +kernel
  have hb := hall b.toNat b.toNat_lt
  rw [UInt8.ofNat_toNat] at hb
  exact hb h

theorem Home.pathText_bytes (h : Home home) :
    ∀ b ∈ pathText home, 32 < b.toNat ∧ isStop b = false := by
  intro b hb
  obtain ⟨s, hs, hb⟩ := List.mem_flatMap.mp hb
  rcases List.mem_cons.mp hb with rfl | hb
  · decide
  · obtain ⟨hvisible, hstop, -, -⟩ := unreserved_facts (h.bytes s hs b hb)
    exact ⟨hvisible, hstop⟩

theorem Home.splitOnP_append (h : Home home) (text : Bytes) :
    (pathText home ++ byte '/' :: text).tail.splitOnP isSlash = home ++ text.splitOnP isSlash := by
  cases home with
  | nil => rfl
  | cons s rest =>
      have htail : (pathText (s :: rest) ++ byte '/' :: text).tail
          = s ++ (pathText rest ++ byte '/' :: text) := by
        unfold pathText
        rw [List.flatMap_cons, List.append_assoc]
        rfl
      rw [htail]
      clear htail
      induction rest generalizing s with
      | nil =>
          have hs : ∀ b ∈ s, isSlash b = false := fun b hb =>
            (unreserved_facts (h.bytes s List.mem_cons_self b hb)).2.2.1
          exact List.splitOnP_append_cons_of_forall_mem hs _ (by decide) _
      | cons next more ih =>
          have hs : ∀ b ∈ s, isSlash b = false := fun b hb =>
            (unreserved_facts (h.bytes s List.mem_cons_self b hb)).2.2.1
          have hcons : pathText (next :: more) ++ byte '/' :: text
              = byte '/' :: (next ++ (pathText more ++ byte '/' :: text)) := by
            unfold pathText
            rw [List.flatMap_cons, List.append_assoc]
            rfl
          have hmore : Home (next :: more) :=
            ⟨fun t ht => h.bytes t (List.mem_cons_of_mem _ ht),
              fun t ht => h.dots t (List.mem_cons_of_mem _ ht)⟩
          rw [hcons, List.splitOnP_append_cons_of_forall_mem hs _ (by decide), ih next hmore]
          rfl

/-- The path of a text in a directory. -/
theorem Home.parse_segments (h : Home home) (text : Bytes) :
    (parse sets (pathText home ++ byte '/' :: text)).segments
      = (climb home (furtherSegments text)).map (encode sets.path) := by
  have hbytes := h.pathText_bytes
  have hclean : clean (pathText home ++ byte '/' :: text)
      = pathText home ++ byte '/' :: clean text :=
    clean_append (by decide) (fun b hb => (hbytes b hb).1) text
  have hgo : ∀ b ∈ pathText home, (!isStop b) = true := by
    intro b hb
    rw [(hbytes b hb).2]
    rfl
  have htake : ((pathText home ++ byte '/' :: clean text).takeWhile fun b => !isStop b)
      = pathText home ++ byte '/' :: (clean text).takeWhile fun b => !isStop b := by
    rw [List.takeWhile_append_of_pos hgo, List.takeWhile_cons_of_pos (by decide)]
  have hclimb : climb [] (home ++ furtherSegments text) = climb home (furtherSegments text) := by
    have hne : furtherSegments text ≠ [] := List.splitOnP_ne_nil _ _
    rw [climb_append hne h.dots, List.nil_append]
  unfold parse segmentsOf
  dsimp only
  rw [hclean, htake, h.splitOnP_append]
  exact congrArg (List.map (encode sets.path)) hclimb

/-- It is below the directory exactly when the segments of the text come back to it. -/
theorem Home.below_iff_returns (h : Home home) (text : Bytes) :
    pathText home ++ [byte '/'] <+: (parse sets (pathText home ++ byte '/' :: text)).path ↔
      (Way.go ⟨0, []⟩ (furtherSegments text)).Returns home := by
  have hslash : ∀ s ∈ home, ∀ b ∈ s, isSlash b = false := fun s hs b hb =>
    (unreserved_facts (h.bytes s hs b hb)).2.2.1
  have hsettled := parse_settled sets (pathText home ++ byte '/' :: text)
  have hstart : Way.reach home ⟨0, []⟩ = home := by
    unfold Way.reach
    rw [List.append_nil, Nat.sub_zero, List.take_length]
  have hkept : home.map (encode sets.path) = home := by
    conv_rhs => rw [← List.map_id home]
    refine List.map_congr_left fun s hs => encode_eq_self fun b hb => ?_
    exact (sets.kept_common (by rw [h.bytes s hs b hb]; rfl)).1
  unfold Parsed.path
  rw [below_iff hslash fun s hs b hb => (hsettled.bytes s hs b hb).2, h.parse_segments,
    Way.returns_iff, ← Way.climb_reach, hstart]
  constructor
  · rintro ⟨s, rest, heq⟩
    obtain ⟨front, back, hfront, hhome, hback⟩ := List.map_eq_append_iff.mp heq
    obtain ⟨t, others, rfl, -, -⟩ := List.map_eq_cons_iff.mp hback
    have hsame : front = home := by
      apply eq_of_map_encode hhome
      exact fun d hd hpercent => (unreserved_facts (h.bytes d hd _ hpercent)).2.2.2 rfl
    exact ⟨t, others, by rw [hfront, hsame]⟩
  · rintro ⟨s, rest, heq⟩
    refine ⟨encode sets.path s, rest.map (encode sets.path), ?_⟩
    rw [heq, List.map_append, hkept, List.map_cons]

end Home

/-- What is appended to the text of a URL does not change its path, unless it is part of it. -/
theorem path_append (text : Bytes) (hrest : Follows rest) :
    (parse sets ((parse sets text).text ++ rest)).path = (parse sets text).path := by
  have hfollows : Follows (((parse sets text).query.elim [] (byte '?' :: ·)
      ++ (parse sets text).fragment.elim [] (byte '#' :: ·)) ++ rest) := by
    cases (parse sets text).query with
    | some query =>
        intro b hb
        obtain rfl := Option.some.inj hb
        decide
    | none =>
        cases (parse sets text).fragment with
        | some fragment =>
            intro b hb
            obtain rfl := Option.some.inj hb
            decide
        | none => exact hrest
  have hread := parse_pathText (parse_settled sets text) hfollows
  have htext : (parse sets text).text ++ rest = pathText (parse sets text).segments
      ++ (((parse sets text).query.elim [] (byte '?' :: ·)
        ++ (parse sets text).fragment.elim [] (byte '#' :: ·)) ++ rest) := by
    simp only [Parsed.text, Parsed.path, List.append_assoc]
  rw [htext, hread]
  rfl

/-! ## What the path keeps of a text -/

/-- `.` or `..`. -/
def isDots (s : Bytes) : Bool := doubleDot s || singleDot s

theorem pathText_cons (s : Bytes) (segments : List Bytes) :
    pathText (s :: segments) = byte '/' :: (s ++ pathText segments) := by
  unfold pathText
  rw [List.flatMap_cons, List.cons_append]

theorem pathText_append (dirs segments : List Bytes) :
    pathText (dirs ++ segments) = pathText dirs ++ pathText segments := List.flatMap_append

theorem length_pathText_dropLast (dirs : List Bytes) :
    (pathText dirs.dropLast).length ≤ (pathText dirs).length := by
  cases dirs using List.reverseRecOn with
  | nil => exact Nat.le_refl _
  | append_singleton front last _ =>
      rw [List.dropLast_concat, pathText_append, List.length_append]
      exact Nat.le_add_right _ _

/-- Every dot segment makes the path shorter. -/
theorem length_climb (dirs segments : List Bytes) :
    (pathText (climb dirs segments)).length + segments.countP isDots
      ≤ (pathText dirs).length + (pathText segments).length := by
  have hdouble : ∀ s, doubleDot s = true → 2 ≤ s.length := by
    intro s hs
    have hle := length_decode_le s
    rw [beq_iff_eq.mp hs] at hle
    exact hle
  have hsingle : ∀ s, singleDot s = true → 1 ≤ s.length := by
    intro s hs
    have hle := length_decode_le s
    rw [beq_iff_eq.mp hs] at hle
    exact hle
  have happend : ∀ front back : List Bytes,
      (pathText (front ++ back)).length = (pathText front).length + (pathText back).length := by
    intro front back
    rw [pathText_append, List.length_append]
  have hone : ∀ s : Bytes, (pathText [s]).length = s.length + 1 := by
    intro s
    rw [pathText_cons, List.length_cons, List.length_append]
    rfl
  induction segments generalizing dirs with
  | nil => exact Nat.le_refl _
  | cons s rest ih =>
      have hdrop := length_pathText_dropLast dirs
      have hcount : (s :: rest).countP isDots
          = rest.countP isDots + if isDots s = true then 1 else 0 := List.countP_cons
      have hlength : (pathText (s :: rest)).length = s.length + 1 + (pathText rest).length := by
        rw [← hone, ← happend]
        rfl
      have hdots : (if isDots s = true then 1 else 0) ≤ s.length := by
        split_ifs with hs
        · rcases Bool.or_eq_true_iff.mp hs with hd | hd
          · exact Nat.le_of_succ_le (hdouble s hd)
          · exact hsingle s hd
        · exact Nat.zero_le _
      have hplain : ¬ doubleDot s = true → ¬ singleDot s = true →
          (if isDots s = true then 1 else 0) = 0 := by
        intro hd hs
        exact if_neg fun h => (Bool.or_eq_true_iff.mp h).elim hd hs
      rw [hcount, hlength]
      generalize (if isDots s = true then 1 else 0) = dots at hdots hplain ⊢
      cases rest with
      | nil =>
          have hlast : ∀ front, (pathText (front ++ [[]])).length = (pathText front).length + 1 :=
            fun front => happend front [[]]
          have hnone : ([] : List Bytes).countP isDots = 0 := rfl
          rw [hnone]
          unfold climb
          split_ifs with hd hs
          · rw [hlast]
            omega
          · rw [hlast]
            omega
          · rw [happend, hone, hplain hd hs]
            omega
      | cons next rest =>
          have hup := ih dirs.dropLast
          have hsame := ih dirs
          have hdown := ih (dirs ++ [s])
          rw [happend, hone] at hdown
          unfold climb
          split_ifs with hd hs
          · omega
          · omega
          · rw [hplain hd hs]
            omega

/-- Separators take one byte each. -/
theorem length_pathText_splitOnP (p : UInt8 → Bool) (text : Bytes) :
    (pathText (text.splitOnP p)).length = text.length + 1 := by
  induction text with
  | nil => rfl
  | cons b text ih =>
      rw [List.splitOnP_cons_eq_if_modifyHead]
      split_ifs
      · rw [pathText_cons, List.nil_append, List.length_cons, ih, List.length_cons]
      · cases hpieces : text.splitOnP p with
        | nil => exact absurd hpieces (List.splitOnP_ne_nil p text)
        | cons first others =>
            rw [hpieces, pathText_cons, List.length_cons, List.length_append] at ih
            rw [List.modifyHead_cons, pathText_cons, List.length_cons, List.length_append,
              List.length_cons, List.length_cons]
            omega

theorem pathText_splitOnP (h : byte '\\' ∉ text) :
    pathText (text.splitOnP isSlash) = byte '/' :: text := by
  induction text with
  | nil => rfl
  | cons b text ih =>
      rw [List.mem_cons, not_or] at h
      have ih := ih h.2
      rw [List.splitOnP_cons_eq_if_modifyHead]
      split_ifs with hb
      · have hslash : b = byte '/' := by
          simp only [isSlash, Bool.or_eq_true, beq_iff_eq] at hb
          exact hb.resolve_right (Ne.symm h.1)
        rw [pathText_cons, List.nil_append, ih, hslash]
      · cases hpieces : text.splitOnP isSlash with
        | nil => exact absurd hpieces (List.splitOnP_ne_nil _ text)
        | cons first others =>
            rw [hpieces, pathText_cons] at ih
            rw [List.modifyHead_cons, pathText_cons, List.cons_append, (List.cons.inj ih).2]

/-- The segments are decoded one by one. -/
theorem decode_pathText (segments : List Bytes) :
    decode (pathText segments) = pathText (segments.map decode) := by
  induction segments with
  | nil => rfl
  | cons s rest ih =>
      rw [pathText_cons, List.map_cons, pathText_cons, decode_cons_of_ne (by decide)]
      congr 1
      cases rest with
      | nil =>
          change decode (s ++ []) = decode s ++ []
          rw [List.append_nil, List.append_nil]
      | cons next rest =>
          rw [pathText_cons] at ih ⊢
          rw [decode_append_cons (by decide) (by decide), ← ih, decode_cons_of_ne (by decide)]

theorem clean_sublist (text : Bytes) : (clean text).Sublist text :=
  List.filter_sublist.trans (List.rdropWhile_prefix blank text).sublist

theorem clean_eq_iff : clean text = text ↔
    (∀ b ∈ text, isBreak b = false) ∧ ∀ b ∈ text.getLast?, blank b = false := by
  constructor
  · intro hclean
    have hwhole : text.rdropWhile blank = text := by
      apply (List.rdropWhile_prefix blank text).eq_of_length
      have hlength := (List.length_filter_le (fun b => !isBreak b) (text.rdropWhile blank))
      have hshort := (List.rdropWhile_prefix blank text).length_le
      have hsame := congrArg List.length hclean
      unfold clean at hsame
      omega
    refine ⟨fun b hb => ?_, fun b hb => ?_⟩
    · rw [← hclean] at hb
      exact Bool.not_eq_true' _ |>.mp (List.mem_filter.mp hb).2
    · obtain ⟨front, rfl⟩ := List.getLast?_eq_some_iff.mp hb
      by_contra hblank
      rw [Bool.not_eq_false] at hblank
      have hshort := (List.rdropWhile_prefix blank front).length_le
      rw [List.rdropWhile_concat_pos _ _ _ hblank] at hwhole
      rw [hwhole, List.length_append, List.length_singleton] at hshort
      omega
  · rintro ⟨hbreaks, hending⟩
    have hwhole : text.rdropWhile blank = text := by
      apply List.rdropWhile_eq_self_iff.mpr
      intro hne hblank
      have hlast := hending (text.getLast hne) (List.getLast?_eq_some_getLast hne)
      rw [hlast] at hblank
      cases hblank
    unfold clean
    rw [hwhole]
    apply List.filter_eq_self.mpr
    intro b hb
    rw [hbreaks b hb]
    rfl

/-- A text that stands for itself in the path of a URL. -/
structure Kept (text : Bytes) : Prop where
  breaks : ∀ b ∈ text, isBreak b = false
  ending : ∀ b ∈ text.getLast?, blank b = false
  stops : ∀ b ∈ text, isStop b = false
  backslash : byte '\\' ∉ text
  escapes : decode text = text
  dots : ∀ s ∈ text.splitOnP isSlash, isDots s = false

theorem decode_path (sets : EncodeSets) (text : Bytes) :
    decode (parse sets text).path = decode (pathText (climb [] (segmentsOf (clean text)))) := by
  have hidempotent := sets.idempotent_path
  unfold parse Parsed.path
  rw [decode_pathText, decode_pathText, List.map_map]
  congr 1
  exact List.map_congr_left fun s _ => hidempotent.decode_encode s

theorem segmentsOf_length (text : Bytes) (h : text.takeWhile (fun b => !isStop b) ≠ []) :
    (pathText (segmentsOf text)).length = (text.takeWhile fun b => !isStop b).length := by
  have hpositive := List.length_pos_iff.mpr h
  rw [segmentsOf, length_pathText_splitOnP, List.length_tail]
  omega

/-- Every loss makes the text shorter, so a text that comes back has had none. -/
theorem kept_of_decode_path (h : decode (parse sets (byte '/' :: text)).path = byte '/' :: text) :
    Kept text := by
  obtain ⟨front, hfront⟩ : ∃ front, front = (clean (byte '/' :: text)).takeWhile fun b => !isStop b :=
    ⟨_, rfl⟩
  have hclean : clean (byte '/' :: text) = byte '/' :: clean text :=
    clean_append (s := []) (by decide) (by simp) text
  have hslash : front = byte '/' :: (clean text).takeWhile fun b => !isStop b := by
    rw [hfront, hclean, List.takeWhile_cons_of_pos (by decide)]
  have hsegments : segmentsOf (clean (byte '/' :: text)) = front.tail.splitOnP isSlash := by
    rw [hfront]
    rfl
  rw [decode_path, hsegments] at h
  -- the lengths, from the text down to the path
  have hcleaned := (clean_sublist text).length_le
  have htaken := (List.takeWhile_prefix (fun b => !isStop b) (l := clean text)).length_le
  have hpieces := length_pathText_splitOnP isSlash front.tail
  have hclimb := length_climb [] (front.tail.splitOnP isSlash)
  have hdecoded := length_decode_le (pathText (climb [] (front.tail.splitOnP isSlash)))
  have hnothing : (pathText []).length = 0 := rfl
  have hlength := congrArg List.length h
  rw [hslash, List.tail_cons] at hpieces hclimb hdecoded hlength
  rw [hslash, List.tail_cons] at h
  rw [List.length_cons] at hlength
  have hsameClean : clean text = text := (clean_sublist text).eq_of_length (by omega)
  rw [hsameClean] at h hpieces hclimb hdecoded hlength htaken
  have hsameFront : text.takeWhile (fun b => !isStop b) = text :=
    (List.takeWhile_prefix _).eq_of_length (by omega)
  rw [hsameFront] at h hpieces hclimb hdecoded hlength
  have hcount : (text.splitOnP isSlash).countP isDots = 0 := by omega
  have hdots : ∀ s ∈ text.splitOnP isSlash, isDots s = false := by
    intro s hs
    exact Bool.eq_false_iff.mpr (List.countP_eq_zero.mp hcount s hs)
  have hplain : climb [] (text.splitOnP isSlash) = text.splitOnP isSlash := by
    have hne : text.splitOnP isSlash ≠ [] := List.splitOnP_ne_nil _ _
    rw [climb_of_plain hne fun s hs => Bool.or_eq_false_iff.mp (hdots s hs), List.nil_append]
  rw [hplain] at h hlength
  have hself : decode (pathText (text.splitOnP isSlash)) = pathText (text.splitOnP isSlash) :=
    decode_eq_self_of_length (by omega)
  have hwhole : pathText (text.splitOnP isSlash) = byte '/' :: text := hself.symm.trans h
  have hbackslash : byte '\\' ∉ text := by
    intro hmem
    have hin : byte '\\' ∈ pathText (text.splitOnP isSlash) := by
      rw [hwhole]
      exact List.mem_cons_of_mem _ hmem
    obtain ⟨s, hs, hb⟩ := List.mem_flatMap.mp hin
    rcases List.mem_cons.mp hb with hb | hb
    · exact absurd hb (by decide)
    · exact absurd (mem_splitOnP hs _ hb).2 (by decide)
  obtain ⟨hbreaks, hending⟩ := clean_eq_iff.mp hsameClean
  refine ⟨hbreaks, hending, fun b hb => ?_, hbackslash, ?_, hdots⟩
  · have hgo := List.takeWhile_eq_self_iff.mp hsameFront b hb
    exact Bool.not_eq_true' _ |>.mp hgo
  · rw [hwhole] at hself
    exact (decode_cons_eq_self hself).2

theorem Kept.clean (h : Kept text) : clean text = text := clean_eq_iff.mpr ⟨h.breaks, h.ending⟩

theorem Kept.parse (h : Kept text) (sets : EncodeSets) :
    decode (parse sets (byte '/' :: text)).path = byte '/' :: text ∧
      (parse sets (byte '/' :: text)).query = none ∧
        (parse sets (byte '/' :: text)).fragment = none := by
  have hstops : ∀ b ∈ byte '/' :: text, isStop b = false := by
    intro b hb
    rcases List.mem_cons.mp hb with rfl | hb
    · decide
    · exact h.stops b hb
  have hclean : Url.clean (byte '/' :: text) = byte '/' :: text := by
    have hfirst := clean_append (b := byte '/') (s := []) (by decide) (by simp) text
    rw [List.nil_append, List.nil_append, h.clean] at hfirst
    exact hfirst
  have hsegments : segmentsOf (byte '/' :: text) = text.splitOnP isSlash := by
    have htake : (byte '/' :: text).takeWhile (fun b => !isStop b) = byte '/' :: text := by
      rw [List.takeWhile_eq_self_iff]
      intro b hb
      rw [hstops b hb]
      rfl
    rw [segmentsOf, htake, List.tail_cons]
  have hne : text.splitOnP isSlash ≠ [] := List.splitOnP_ne_nil _ _
  refine ⟨?_, parse_pathOnly sets hstops⟩
  rw [decode_path, hclean, hsegments,
    climb_of_plain hne fun s hs => Bool.or_eq_false_iff.mp (h.dots s hs), List.nil_append,
    pathText_splitOnP h.backslash, decode_cons_of_ne (by decide), h.escapes]

/-- A path says what the text says exactly when the text is made for one. -/
theorem decode_path_iff :
    decode (parse sets (byte '/' :: text)).path = byte '/' :: text ↔ Kept text :=
  ⟨kept_of_decode_path, fun h => (h.parse sets).1⟩

/-- In a directory. -/
theorem Home.kept_iff {home : List Bytes} (h : Home home) :
    Kept (pathText home ++ byte '/' :: text).tail ↔ Kept text := by
  obtain ⟨front, hfront⟩ : ∃ front, front = (pathText home ++ [byte '/']).tail := ⟨_, rfl⟩
  have hbytes : ∀ b ∈ front, 32 < b.toNat ∧ isStop b = false ∧ b ≠ byte '\\' := by
    intro b hb
    rw [hfront] at hb
    rcases List.mem_append.mp (List.mem_of_mem_tail hb) with hb | hb
    · obtain ⟨hvisible, hstop⟩ := h.pathText_bytes b hb
      obtain ⟨s, hs, hb⟩ := List.mem_flatMap.mp hb
      refine ⟨hvisible, hstop, ?_⟩
      rintro rfl
      rcases List.mem_cons.mp hb with hb | hb
      · exact absurd hb (by decide)
      · exact absurd (h.bytes s hs _ hb) (by decide)
    · obtain rfl := List.mem_singleton.mp hb
      decide
  have htail : (pathText home ++ byte '/' :: text).tail = front ++ text := by
    have hne : pathText home ++ [byte '/'] ≠ [] := by simp
    rw [hfront, ← List.tail_append_of_ne_nil hne, List.append_assoc, List.singleton_append]
  have hdots : ∀ s ∈ home, isDots s = false := fun s hs =>
    Bool.or_eq_false_iff.mpr (h.dots s hs)
  have hhome : decode (pathText home) = pathText home := by
    rw [decode_pathText]
    congr 1
    conv_rhs => rw [← List.map_id home]
    refine List.map_congr_left fun s hs => ?_
    have hencode : encode unreserved s = s := encode_eq_self (h.bytes s hs)
    conv_lhs => rw [← hencode]
    exact decode_encode (by decide) s
  have hescapes : decode (front ++ text) = front ++ text ↔ decode text = text := by
    have hwhole : byte '/' :: (front ++ text) = pathText home ++ byte '/' :: text := by
      rw [← htail]
      cases home with
      | nil => rfl
      | cons s rest => rw [pathText_cons]; rfl
    have hdecode : byte '/' :: decode (front ++ text) = pathText home ++ byte '/' :: decode text := by
      rw [← decode_cons_of_ne (by decide), hwhole, decode_append_cons (by decide) (by decide), hhome]
    constructor
    · intro hsame
      rw [hsame, hwhole] at hdecode
      exact (List.cons.inj (List.append_cancel_left hdecode)).2.symm
    · intro hsame
      rw [hsame, ← hwhole] at hdecode
      exact (List.cons.inj hdecode).2
  have hsplit := h.splitOnP_append text
  rw [htail] at hsplit ⊢
  constructor
  · intro hkept
    refine ⟨fun b hb => hkept.breaks b (List.mem_append_right _ hb), fun b hb => ?_,
      fun b hb => hkept.stops b (List.mem_append_right _ hb),
      fun hb => hkept.backslash (List.mem_append_right _ hb), hescapes.mp hkept.escapes,
      fun s hs => hkept.dots s (by rw [hsplit]; exact List.mem_append_right _ hs)⟩
    apply hkept.ending b
    rw [List.getLast?_append, hb]
    rfl
  · intro hkept
    constructor
    · intro b hb
      rcases List.mem_append.mp hb with hb | hb
      · have hvisible := (hbytes b hb).1
        simp only [isBreak, Bool.or_eq_false_iff, beq_eq_false_iff_ne]
        omega
      · exact hkept.breaks b hb
    · intro b hb
      rw [List.getLast?_append, Option.mem_def, Option.or_eq_some_iff] at hb
      rcases hb with hb | ⟨-, hb⟩
      · exact hkept.ending b hb
      · have hvisible := (hbytes b (List.mem_of_getLast? hb)).1
        simp only [blank, decide_eq_false_iff_not]
        omega
    · intro b hb
      rcases List.mem_append.mp hb with hb | hb
      · exact (hbytes b hb).2.1
      · exact hkept.stops b hb
    · intro hb
      rcases List.mem_append.mp hb with hb | hb
      · exact (hbytes _ hb).2.2 rfl
      · exact hkept.backslash hb
    · exact hescapes.mpr hkept.escapes
    · intro s hs
      rw [hsplit] at hs
      rcases List.mem_append.mp hs with hs | hs
      · exact hdots s hs
      · exact hkept.dots s hs

/-! ## The sets of the standard -/

def whatwgPath (b : UInt8) : Bool :=
  decide (32 < b.toNat) && decide (b.toNat < 127) && !(utf8 "\"#<>?^`\x7b\x7d").contains b

def whatwgQuery (b : UInt8) : Bool :=
  decide (32 < b.toNat) && decide (b.toNat < 127) && !(utf8 "\"#<>'").contains b

def whatwgFragment (b : UInt8) : Bool :=
  decide (32 < b.toNat) && decide (b.toNat < 127) && !(utf8 "\"<>`").contains b

/-- Those of the present edition, for a scheme such as https. -/
def whatwg : EncodeSets where
  path := whatwgPath
  query := whatwgQuery
  fragment := whatwgFragment
  visible b h := by
    simp only [whatwgPath, whatwgQuery, whatwgFragment, Bool.or_eq_true, Bool.and_eq_true,
      decide_eq_true_eq] at h
    omega
  pathEnd := by decide
  queryEnd := by decide
  common b h := by
    have hall : ∀ n < 256, (unreserved (UInt8.ofNat n) || UInt8.ofNat n == byte '%'
        || UInt8.ofNat n == byte '=' || UInt8.ofNat n == byte '&') = true →
        (whatwgPath (UInt8.ofNat n) && whatwgQuery (UInt8.ofNat n)
          && whatwgFragment (UInt8.ofNat n)) = true := by decide +kernel
    have hb := hall b.toNat b.toNat_lt
    rw [UInt8.ofNat_toNat] at hb
    exact hb h

end Url
