/-!
# Cutting a text at a separator

`cutAt sep cs` splits a text at the first place where `sep` stands, and `splitAt sep cs` at every
such place, from left to right. A cut loses nothing: the two sides with the separator between
them are the text (`eq_of_cutAt`).
-/

namespace SchemaEvolution.Text

/-- What follows `start` in a text that starts with it. -/
def dropStart? (start cs : List Char) : Option (List Char) :=
  if start.isPrefixOf cs then some (cs.drop start.length) else none

theorem eq_of_dropStart? {start cs rest : List Char} (h : dropStart? start cs = some rest) :
    cs = start ++ rest := by
  unfold dropStart? at h
  split at h
  · next hp =>
    obtain ⟨t, rfl⟩ := List.isPrefixOf_iff_prefix.1 hp
    simpa using h
  · cases h

/-- The sides of the first place where `sep` stands. -/
def cutAt (sep : List Char) : List Char → Option (List Char × List Char)
  | [] => (dropStart? sep []).map fun rest => ([], rest)
  | c :: cs =>
    match dropStart? sep (c :: cs) with
    | some rest => some ([], rest)
    | none => (cutAt sep cs).map fun (before, after) => (c :: before, after)

theorem eq_of_cutAt {sep cs before after : List Char} (h : cutAt sep cs = some (before, after)) :
    cs = before ++ sep ++ after := by
  induction cs generalizing before with
  | nil =>
    simp only [cutAt, Option.map_eq_some_iff, Prod.mk.injEq] at h
    obtain ⟨rest, hr, rfl, rfl⟩ := h
    simpa using eq_of_dropStart? hr
  | cons c cs ih =>
    rw [cutAt] at h
    split at h
    · next rest hr =>
      simp only [Option.some.injEq, Prod.mk.injEq] at h
      obtain ⟨rfl, rfl⟩ := h
      simpa using eq_of_dropStart? hr
    · simp only [Option.map_eq_some_iff, Prod.exists, Prod.mk.injEq] at h
      obtain ⟨b, a, hc, rfl, rfl⟩ := h
      simpa using ih hc

/-- The texts between all places where a separator stands. -/
def splitAt (sep : List Char) (hsep : sep ≠ []) (cs : List Char) : List (List Char) :=
  match _h : cutAt sep cs with
  | some (before, after) => before :: splitAt sep hsep after
  | none => [cs]
termination_by cs.length
decreasing_by
  have hlength := congrArg List.length (eq_of_cutAt _h)
  have hpos := List.length_pos_iff.2 hsep
  simp only [List.length_append] at hlength
  omega

theorem splitAt_of_some {sep cs before after : List Char} (hsep : sep ≠ [])
    (h : cutAt sep cs = some (before, after)) :
    splitAt sep hsep cs = before :: splitAt sep hsep after := by
  rw [splitAt]
  split
  next before' after' h' =>
    obtain ⟨rfl, rfl⟩ := Prod.mk.inj (Option.some.inj (h.symm.trans h'))
    rfl
  next h' =>
    rw [h'] at h
    cases h

theorem splitAt_of_none {sep cs : List Char} (hsep : sep ≠ []) (h : cutAt sep cs = none) :
    splitAt sep hsep cs = [cs] := by
  rw [splitAt]
  split
  next before' after' h' =>
    rw [h'] at h
    cases h
  next => rfl

end SchemaEvolution.Text
