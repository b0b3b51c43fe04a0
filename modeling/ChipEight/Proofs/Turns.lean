import ChipEight.CommandLine.Stderr
import ChipEight.History

/-!
# Turns

The turns tell every order in which the host and the reader of the standard input can write to the
standard error stream, and no other.  Nothing of the host's is lost, and what is lost of the
reader's is the end of it.
-/

namespace ChipEight.CommandLine

open History (Interleaves)

theorem interleaves_weave (turns : List Turn) (host reader : List Entry) :
    ∃ heard, heard <+: reader ∧ Interleaves host heard (weave turns host reader) := by
  induction turns generalizing host reader with
  | nil => exact ⟨[], List.nil_prefix, History.interleaves_alone host⟩
  | cons turn turns ih =>
      cases turn with
      | host =>
          cases host with
          | nil => exact ⟨[], List.nil_prefix, .nil⟩
          | cons entry host =>
              obtain ⟨heard, hheard, hmixed⟩ := ih host reader
              exact ⟨heard, hheard, .left entry hmixed⟩
      | reader =>
          cases reader with
          | nil => exact ih host []
          | cons entry reader =>
              obtain ⟨heard, hheard, hmixed⟩ := ih host reader
              exact ⟨entry :: heard, (List.prefix_cons_inj entry).mpr hheard, .right entry hmixed⟩

theorem exists_weave_eq_of_interleaves {host heard entries : List Entry}
    (hmixed : Interleaves host heard entries) {reader : List Entry} (hheard : heard <+: reader) :
    ∃ turns, weave turns host reader = entries := by
  induction hmixed generalizing reader with
  | nil => exact ⟨[], rfl⟩
  | left entry _ ih =>
      obtain ⟨turns, rfl⟩ := ih hheard
      exact ⟨.host :: turns, rfl⟩
  | right entry _ ih =>
      obtain ⟨lost, rfl⟩ := hheard
      obtain ⟨turns, rfl⟩ := ih (List.prefix_append _ lost)
      exact ⟨.reader :: turns, rfl⟩

theorem exists_weave_eq_iff (host reader entries : List Entry) :
    (∃ turns, weave turns host reader = entries) ↔
      ∃ heard, heard <+: reader ∧ Interleaves host heard entries := by
  constructor
  · rintro ⟨turns, rfl⟩
    exact interleaves_weave turns host reader
  · rintro ⟨heard, hheard, hmixed⟩
    exact exists_weave_eq_of_interleaves hmixed hheard

end ChipEight.CommandLine
