import SharedFetch.Lock

/-!
# Turns for the lock

Only the head of the line gets in, and only if the lock allows it (`Lock.exists_of_grant?`);
whoever is at the head and is allowed does get in (`Lock.isSome_grant?`). An outsider gets to
write only past an empty line.
-/

namespace SharedFetch.Lock

variable {π : Type} {l l' : Lock π}

/-- Whoever gets in was at the head of the line. -/
theorem exists_of_grant? [DecidableEq π] {p : π} (h : l.grant? p = some l') :
    ∃ access rest, l.line = (p, access) :: rest ∧ l.allows access = true ∧
      l' = { l with line := rest, writing := l.writing || access == .write } := by
  rw [grant?] at h
  split at h
  · cases h
  · rename_i q access rest hline
    rw [Option.ite_none_right_eq_some] at h
    obtain ⟨⟨rfl, hallows⟩, hgranted⟩ := h
    exact ⟨access, rest, hline, hallows, (Option.some.inj hgranted).symm⟩

/-- The head of the line gets in if the lock allows it. -/
theorem isSome_grant? [DecidableEq π] {p : π} {access : Access} {rest : List (π × Access)}
    (hline : l.line = (p, access) :: rest) (hallows : l.allows access = true) :
    (l.grant? p).isSome = true := by
  simp [grant?, hline, hallows]

theorem outsider_of_grant? [DecidableEq π] {p : π} (h : l.grant? p = some l') :
    l'.outsider = l.outsider := by
  obtain ⟨access, rest, -, -, rfl⟩ := exists_of_grant? h
  rfl

theorem line_guard (l : Lock π) (access : Access) : (l.guard access).2.line = l.line := by
  rw [guard]
  split <;> rfl

theorem writing_guard (l : Lock π) (access : Access) :
    (l.guard access).2.writing = l.writing := by
  rw [guard]
  split <;> rfl

/-- An outsider that writes after it has asked for a guard has written before, or has found the
line empty. -/
theorem outsider_guard {access : Access} (h : (l.guard access).2.outsider = some .write) :
    l.outsider = some .write ∨ l.line = [] := by
  rw [guard] at h
  split at h
  · rename_i hfree
    obtain rfl : access = .write := Option.some.inj h
    rw [isFree, Bool.and_eq_true, List.isEmpty_iff] at hfree
    exact .inr hfree.2
  · exact .inl h

end SharedFetch.Lock
