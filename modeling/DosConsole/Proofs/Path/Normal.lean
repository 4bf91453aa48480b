import DosConsole.Path

/-!
# Normalized paths

Normalization only ever keeps pieces that are segments (`isSegment_of_mem_target`), and the text of
segments is cut into the same segments again (`segments_text`). So the normalized path of a target
is the text of segments, and cutting it gives the list that the target leads to
(`segments_normalize`). What is proved of lists of segments can then be said of normalized paths.

Normalization adds no symbol to those of the path and the directory (`mem_of_mem_target`), and it
leaves the text of segments as it is, from whatever directory (`normalize_text`). A path that it
leaves as it is from some directory is of that kind (`exists_normalize_eq_self_iff`).

What a row of pieces leads to depends on what came before only through the segments reached so far
(`reduce_append`), and these may as well be written down and read again (`reduce_pieces_text`). So a
relative path after another one is normalized from where the other one leads (`normalize_join`).
-/

namespace DosConsole.Path

/-! ### Pieces -/

/-- A piece of a path holds symbols of the path, but no slash. -/
theorem mem_of_mem_pieces {path s : Text} (h : s ∈ pieces path) {x : Symbol} (hx : x ∈ s) :
    x ∈ path ∧ x ≠ .char '/' := by
  rw [pieces] at h
  induction path generalizing s with
  | nil =>
    rw [List.splitOn_nil, List.mem_singleton] at h
    subst h
    exact absurd hx List.not_mem_nil
  | cons c rest ih =>
    rw [List.splitOn_cons_eq_if_modifyHead] at h
    -- a slash opens a new piece, and any other symbol goes in front of the first one
    split at h
    · rcases List.mem_cons.mp h with rfl | h
      · exact absurd hx List.not_mem_nil
      · exact (ih h hx).imp_left (List.mem_cons_of_mem _)
    · rename_i hc
      obtain ⟨first, others, hsplit⟩ := List.exists_cons_of_ne_nil
        (List.splitOn_ne_nil (Symbol.char '/') rest)
      rw [hsplit, List.modifyHead_cons] at h
      have hrest : ∀ p ∈ first :: others, x ∈ p → x ∈ c :: rest ∧ x ≠ .char '/' := fun p hp hxp =>
        (ih (hsplit ▸ hp) hxp).imp_left (List.mem_cons_of_mem _)
      rcases List.mem_cons.mp h with rfl | h
      · rcases List.mem_cons.mp hx with rfl | hx
        · exact ⟨List.mem_cons_self, fun heq => hc (beq_iff_eq.mpr heq)⟩
        · exact hrest first List.mem_cons_self hx
      · exact hrest s (List.mem_cons_of_mem _ h) hx

theorem slash_notMem_of_mem_pieces {path s : Text} (h : s ∈ pieces path) : .char '/' ∉ s :=
  fun hmem => (mem_of_mem_pieces h hmem).2 rfl

/-- Following a piece leaves nothing new on the trail but that piece, and only if it is a name. -/
theorem mem_follow {trail : List Text} {piece s : Text} (h : s ∈ follow trail piece) :
    s ∈ trail ∨ s = piece ∧ s ≠ [] ∧ s ≠ "." ∧ s ≠ ".." := by
  rw [follow] at h
  split at h
  · exact .inl (List.mem_of_mem_tail h)
  · rename_i hup
    split at h
    · exact .inl h
    · rename_i hskip
      obtain ⟨hempty, hdot⟩ := not_or.mp hskip
      rcases List.mem_cons.mp h with rfl | h
      · exact .inr ⟨rfl, hempty, hdot, hup⟩
      · exact .inl h

/-- Pieces lead over names that are among them. -/
theorem mem_of_mem_reduce {ps : List Text} {s : Text} (h : s ∈ reduce ps) :
    s ∈ ps ∧ s ≠ [] ∧ s ≠ "." ∧ s ≠ ".." := by
  -- the induction is on the pieces that are left, over whatever trail there is so far
  have trail : ∀ (rest trail : List Text), s ∈ rest.foldl follow trail →
      s ∈ trail ∨ s ∈ rest ∧ s ≠ [] ∧ s ≠ "." ∧ s ≠ ".." := by
    intro rest
    induction rest with
    | nil => exact fun trail h => .inl h
    | cons p rest ih =>
      intro trail h
      rcases ih (follow trail p) h with h | h
      · rcases mem_follow h with h | ⟨rfl, hname⟩
        · exact .inl h
        · exact .inr ⟨List.mem_cons_self, hname⟩
      · exact .inr (h.imp_left (List.mem_cons_of_mem _))
  exact (trail ps [] (List.mem_reverse.mp h)).resolve_left List.not_mem_nil

/-- A target leads over pieces of the path or of the directory it starts from. -/
theorem mem_pieces_of_mem_target {path cwd s : Text} (h : s ∈ target path cwd) :
    s ∈ pieces path ∨ s ∈ pieces cwd := by
  have hpiece := (mem_of_mem_reduce h).1
  split at hpiece
  · exact .inl hpiece
  · exact (List.mem_append.mp hpiece).symm

/-- A target leads over segments only, from whatever directory. -/
theorem isSegment_of_mem_target {path cwd s : Text} (h : s ∈ target path cwd) : IsSegment s := by
  obtain ⟨-, hempty, hdot, hup⟩ := mem_of_mem_reduce h
  refine ⟨hempty, ?_, hdot, hup⟩
  rcases mem_pieces_of_mem_target h with h | h
  · exact slash_notMem_of_mem_pieces h
  · exact slash_notMem_of_mem_pieces h

/-- A target leads over symbols of the path and of the directory it starts from. -/
theorem mem_of_mem_target {path cwd s : Text} (h : s ∈ target path cwd) {x : Symbol}
    (hx : x ∈ s) : x ∈ path ∨ x ∈ cwd :=
  (mem_pieces_of_mem_target h).imp (fun h => (mem_of_mem_pieces h hx).1) fun h =>
    (mem_of_mem_pieces h hx).1

/-- Names follow one after the other. -/
theorem reduce_eq_self {ps : List Text} (h : ∀ s ∈ ps, IsSegment s) : reduce ps = ps := by
  have trail : ∀ (rest trail : List Text), (∀ s ∈ rest, IsSegment s) →
      rest.foldl follow trail = rest.reverse ++ trail := by
    intro rest
    induction rest with
    | nil => exact fun trail _ => rfl
    | cons p rest ih =>
      intro trail hrest
      obtain ⟨hempty, -, hdot, hup⟩ := hrest p List.mem_cons_self
      have hfollow : follow trail p = p :: trail := by
        rw [follow, if_neg hup, if_neg (not_or.mpr ⟨hempty, hdot⟩)]
      rw [List.foldl_cons, hfollow, ih _ fun s hs => hrest s (List.mem_cons_of_mem _ hs),
        List.reverse_cons, List.append_assoc, List.singleton_append]
  rw [reduce, trail ps [] h, List.append_nil, List.reverse_reverse]

/-! ### Texts of segments -/

/-- The text of segments is cut into these segments, after the slash that it starts with. -/
theorem pieces_text {segs : List Text} (h : ∀ s ∈ segs, IsSegment s) (hne : segs ≠ []) :
    pieces (text segs) = [] :: segs := by
  have hcut : pieces (List.intercalate [.char '/'] segs) = segs :=
    List.splitOn_intercalate _ (fun t ht => (h t ht).2.1) hne
  have hslash : pieces (text segs) = [] :: pieces (List.intercalate [.char '/'] segs) := by
    rw [pieces, text, List.splitOn_cons_eq_if_modifyHead, if_pos (beq_self_eq_true _), pieces]
  rw [hslash, hcut]

theorem segments_text {segs : List Text} (h : ∀ s ∈ segs, IsSegment s) :
    segments (text segs) = segs := by
  cases segs with
  | nil => rfl
  | cons s rest =>
    rw [segments, pieces_text h (List.cons_ne_nil _ _), List.filter_cons_of_neg (by simp)]
    exact List.filter_eq_self.mpr fun t ht => decide_eq_true (h t ht).1

/-- The text of segments holds slashes and the symbols of the segments. -/
theorem mem_of_mem_text {segs : List Text} {x : Symbol} (h : x ∈ text segs) :
    x = .char '/' ∨ ∃ s ∈ segs, x ∈ s := by
  have between : x ∈ List.intercalate [.char '/'] segs → x = .char '/' ∨ ∃ s ∈ segs, x ∈ s := by
    clear h
    induction segs with
    | nil => exact fun h => absurd h List.not_mem_nil
    | cons s rest ih =>
      cases rest with
      | nil => exact fun h => .inr ⟨s, List.mem_cons_self, by simpa using h⟩
      | cons u rest =>
        rw [List.intercalate_cons_cons, List.mem_append, List.mem_append, List.mem_singleton]
        rintro ((h | h) | h)
        · exact .inr ⟨s, List.mem_cons_self, h⟩
        · exact .inl h
        · exact (ih h).imp_right fun ⟨t, ht, hx⟩ => ⟨t, List.mem_cons_of_mem _ ht, hx⟩
  exact (List.mem_cons.mp h).elim .inl between

/-- The text of segments leads over these segments, from whatever directory. -/
theorem target_text {segs : List Text} (h : ∀ s ∈ segs, IsSegment s) (cwd : Text) :
    target (text segs) cwd = segs := by
  have habsolute : target (text segs) cwd = reduce (pieces (text segs)) := rfl
  rw [habsolute]
  cases segs with
  | nil => rfl
  | cons s rest =>
    have hskip : reduce ([] :: s :: rest) = reduce (s :: rest) := rfl
    rw [pieces_text h (List.cons_ne_nil _ _), hskip, reduce_eq_self h]

theorem normalize_text {segs : List Text} (h : ∀ s ∈ segs, IsSegment s) (cwd : Text) :
    normalize (text segs) cwd = text segs := by
  rw [normalize, target_text h]

theorem segments_normalize (path cwd : Text) : segments (normalize path cwd) = target path cwd :=
  segments_text fun _ => isSegment_of_mem_target

/-- Also the text of the first segments of a target is cut into these. -/
theorem segments_text_of_target {path cwd : Text} {first rest : List Text}
    (h : target path cwd = first ++ rest) : segments (text first) = first :=
  segments_text fun _ hs => isSegment_of_mem_target (h ▸ List.mem_append_left rest hs)

/-- Normalization gives a normalized path, from whatever directory. -/
theorem isNormalized_normalize (path cwd : Text) : IsNormalized (normalize path cwd) :=
  ⟨target path cwd, fun _ => isSegment_of_mem_target, rfl⟩

theorem isNormalized_root : IsNormalized "/" :=
  ⟨[], fun _ hs => absurd hs List.not_mem_nil, rfl⟩

/-- A normalized path is the text of its segments. -/
theorem IsNormalized.text_segments {path : Text} (h : IsNormalized path) :
    text (segments path) = path := by
  obtain ⟨segs, hsegs, rfl⟩ := h
  rw [segments_text hsegs]

theorem IsNormalized.isSegment {path s : Text} (h : IsNormalized path) (hs : s ∈ segments path) :
    IsSegment s := by
  obtain ⟨segs, hsegs, rfl⟩ := h
  exact hsegs s (segments_text hsegs ▸ hs)

/-- Only the root is a normalized path without segments. -/
theorem IsNormalized.eq_root_iff {path : Text} (h : IsNormalized path) :
    path = "/" ↔ segments path = [] := by
  constructor
  · rintro rfl
    have hroot : segments (text []) = [] := segments_text fun _ hs => absurd hs List.not_mem_nil
    exact hroot
  · intro hnil
    rw [← h.text_segments, hnil]
    rfl

theorem normalize_eq_root_iff {path cwd : Text} :
    normalize path cwd = "/" ↔ target path cwd = [] := by
  rw [(isNormalized_normalize path cwd).eq_root_iff, segments_normalize]

/-- The path around a normalized path has all its segments but the last. -/
theorem IsNormalized.segments_parent {path : Text} (h : IsNormalized path) :
    segments (parentAndName path).1 = (segments path).dropLast :=
  segments_text fun _ hs => h.isSegment (List.dropLast_subset _ hs)

theorem IsNormalized.normalize_eq_self {path : Text} (h : IsNormalized path) (cwd : Text) :
    normalize path cwd = path := by
  obtain ⟨segs, hsegs, rfl⟩ := h
  exact normalize_text hsegs cwd

/-- A path is normalized just when normalization leaves it alone from some directory. -/
theorem exists_normalize_eq_self_iff {path : Text} :
    (∃ cwd, normalize path cwd = path) ↔ IsNormalized path := by
  constructor
  · rintro ⟨cwd, h⟩
    exact h ▸ isNormalized_normalize path cwd
  · intro h
    exact ⟨"/", h.normalize_eq_self "/"⟩

/-! ### Joining -/

theorem pieces_join (p q : Text) : pieces (p ++ .char '/' :: q) = pieces p ++ pieces q :=
  List.splitOn_append_cons_self p q

/-- The pieces that come later start from the segments that the earlier ones lead to. -/
theorem reduce_append (earlier later : List Text) :
    reduce (earlier ++ later) = (later.foldl follow (reduce earlier).reverse).reverse := by
  rw [reduce, List.foldl_append, reduce, List.reverse_reverse]

/-- The text of segments leads back to these segments. -/
theorem reduce_pieces_text {segs : List Text} (h : ∀ s ∈ segs, IsSegment s) :
    reduce (pieces (text segs)) = segs :=
  target_text h "/"

theorem isAbsolute_append {p : Text} (hp : p ≠ []) (q : Text) :
    isAbsolute (p ++ q) = isAbsolute p := by
  cases p with
  | nil => exact absurd rfl hp
  | cons c rest => rfl

/-- A relative path after another one leads on from where the other one leads. -/
theorem target_join {p q : Text} (hp : p ≠ []) (hq : isAbsolute q = false) (cwd : Text) :
    target (p ++ .char '/' :: q) cwd = target q (normalize p cwd) := by
  have hsegs : ∀ s ∈ target p cwd, IsSegment s := fun _ => isSegment_of_mem_target
  have hwhole : target (p ++ .char '/' :: q) cwd =
      ((pieces q).foldl follow (target p cwd).reverse).reverse := by
    rw [target, isAbsolute_append hp, pieces_join, ← List.append_assoc, ← apply_ite (· ++ pieces q),
      reduce_append, target]
  have hrest : target q (normalize p cwd) =
      ((pieces q).foldl follow (target p cwd).reverse).reverse := by
    rw [target, hq, if_neg Bool.false_ne_true, reduce_append, normalize, reduce_pieces_text hsegs]
  rw [hwhole, hrest]

theorem normalize_join {p q : Text} (hp : p ≠ []) (hq : isAbsolute q = false) (cwd : Text) :
    normalize (p ++ "/" ++ q) cwd = normalize q (normalize p cwd) := by
  have hslash : p ++ "/" ++ q = p ++ .char '/' :: q := List.append_assoc p _ q
  rw [hslash, normalize, target_join hp hq, ← normalize]

end DosConsole.Path
