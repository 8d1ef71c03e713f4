import LineScore.Proofs.Conductor

/-! The field of the tempo. The microseconds of a quarter note come from a division in doubles, which never
carries a quotient over the next whole number, so cutting it leaves the exact quotient of whole numbers. Three
bytes are kept of it. That is enough from four beats per minute on; slower tempos, which are accepted all the
same, lose the front of their number. -/

namespace LineScore.Midi

/-- Rounding leaves a quotient of 60000000 below the next whole number. -/
theorem quotient_le (t : Nat) (ht : 0 < t) :
    (60000000 / t : Rat) ≤ (60000000 / t : Nat) + 1 - 1 / 2 ^ 26 := by
  have hpos : (0 : Rat) < t := by exact_mod_cast ht
  have hsplit := Nat.div_add_mod 60000000 t
  have hrest := Nat.mod_lt 60000000 ht
  generalize 60000000 / t = q at *
  generalize 60000000 % t = r at *
  have hvalue : (60000000 / t : Rat) = q + r / t := by
    have hcast : (60000000 : Rat) = t * q + r := by exact_mod_cast hsplit.symm
    rw [hcast]
    field_simp
  -- the rest is at most one less than the divisor, or it is the number itself and the divisor much larger
  have hbound : (r / t : Rat) ≤ 1 - 1 / 2 ^ 26 := by
    rw [div_le_iff₀ hpos]
    have hsmall : 67108864 * r ≤ 67108863 * t := by
      rcases Nat.lt_or_ge t 67108864 with hlt | hge
      · omega
      · have hle : r ≤ 60000000 := by omega
        omega
    have hcast : (67108864 * r : Rat) ≤ 67108863 * t := by exact_mod_cast hsmall
    linarith
  rw [hvalue]
  linarith

/-- The division in doubles is exact once it is cut: the doubles at both ends keep it between them. -/
theorem microseconds_eq (tempo : Tempo) : microseconds tempo = 60000000 / tempo.val := by
  obtain ⟨t, ht⟩ := tempo
  have hpos : (0 : Rat) < t := by exact_mod_cast ht
  have hquotient : 60000000 / t ≤ 60000000 := Nat.div_le_self _ _
  have hlower : ((60000000 / t : Nat) : Rat) ≤ 60000000 / t := by
    rw [le_div_iff₀ hpos]
    exact_mod_cast Nat.div_mul_le_self 60000000 t
  have hupper := quotient_le t ht
  generalize 60000000 / t = q at *
  have hfirst : Number.nearest? q = some (q : Rat) :=
    Number.nearest?_of_fraction (k := q) (e := 0) (by omega) (by decide) (by simp)
  have hlast : Number.nearest? (q + 1 - 1 / 2 ^ 26) = some (q + 1 - 1 / 2 ^ 26 : Rat) := by
    refine Number.nearest?_of_fraction (k := 2 ^ 26 * q + (2 ^ 26 - 1)) (e := 26) (by omega) (by decide) ?_
    push_cast
    ring
  obtain ⟨d, hd, hlow, hhigh⟩ := Number.exists_nearest? hfirst (Nat.cast_nonneg q) hlower hlast hupper
  have hcut : Number.truncate d = q := by
    rw [Number.truncate_eq_floor ((Nat.cast_nonneg q).trans hlow), Int.floor_eq_iff]
    have hbelow : (0 : Rat) < 1 / 2 ^ 26 := by positivity
    exact ⟨by exact_mod_cast hlow, by push_cast; linarith⟩
  simp only [microseconds, hd, Option.map_some, Option.getD_some, hcut, Int.toNat_natCast]

section Songs

variable {settings : TimelineSettings} {steps : List Step} {f : File} {bytes : List UInt8}

/-- The bytes of a song that has been rendered hold its first track. -/
theorem readFirst?_of_render (hrender : (render settings (Session.run {} steps).song).result = .ok f)
    (hbytes : f.bytes = .ok bytes) :
    ∃ conductor, (conductorTrack (Session.run {} steps).song).result = .ok conductor ∧
      readFirst? bytes = some conductor.events := by
  obtain ⟨-, ⟨name, conductor, -, hconductor, rfl⟩, -⟩ := exists_of_render hrender
  have hfits := conductorTrack_fits (Session.records_of_run steps) hconductor
  exact ⟨conductor, hconductor, (readFirst?_bytes hfits hbytes).2⟩

/-- The quotient fits three bytes from a tempo of four on. -/
theorem quotient_mod_iff {t : Nat} (ht : 0 < t) : 60000000 / t % 2 ^ 24 = 60000000 / t ↔ 4 ≤ t := by
  constructor
  · intro hfits
    by_contra hslow
    have hcases : t = 1 ∨ t = 2 ∨ t = 3 := by omega
    rcases hcases with rfl | rfl | rfl <;> simp at hfits
  · intro hfast
    have hfew : 60000000 / t ≤ 60000000 / 4 := Nat.div_le_div_left hfast (by decide)
    exact Nat.mod_eq_of_lt (by omega)

/-- Written and read back, a song has one tempo. Its three bytes hold the microseconds of a quarter note, the
whole quotient of 60000000 and the beats per minute, without what exceeds 24 bits; nothing does exactly if there
are at least four beats per minute. -/
theorem tempo_of_render (hrender : (render settings (Session.run {} steps).song).result = .ok f)
    (hbytes : f.bytes = .ok bytes) :
    let tempo := (Session.run {} steps).song.tempo.val
    ∃ events data, readFirst? bytes = some events ∧ tagged 0x51 events = [(0, .tag 0x51 data)] ∧
      data.length = 3 ∧ ofBigEndian data = 60000000 / tempo % 2 ^ 24 ∧
      (ofBigEndian data = 60000000 / tempo ↔ 4 ≤ tempo) := by
  intro tempo
  obtain ⟨conductor, hconductor, hread⟩ := readFirst?_of_render hrender hbytes
  have htempo := tagged_tempo hconductor
  rw [microseconds_eq] at htempo
  have hdata : ofBigEndian (bigEndian 3 (60000000 / tempo)) = 60000000 / tempo % 2 ^ 24 :=
    ofBigEndian_bigEndian 3 _
  refine ⟨_, _, hread, htempo, length_bigEndian 3 _, hdata, ?_⟩
  rw [hdata]
  exact quotient_mod_iff (Session.run {} steps).song.tempo.property

/-- The tracks of a song of which only the tempo is declared. -/
def tempoTracks (micros : Nat) : List Track :=
  [[⟨0, .tempo micros⟩, ⟨0, .timeSignature 4 2⟩, ⟨0, .keySignature 0 false⟩],
    [⟨0, .trackName (letters "Untitled by Anonymous")⟩]]

theorem exists_bytes_tempoTracks : ∀ micros ∈ [8571428, 20000000],
    ∃ bytes, File.bytes ⟨tempoTracks micros⟩ = .ok bytes := by
  intro micros hmicros
  refine File.exists_bytes (List.forall_mem_cons.mpr ⟨?conductor, List.forall_mem_singleton.mpr ?name⟩)
  case conductor =>
    have hordered : Track.ordered [⟨0, .tempo micros⟩, ⟨0, .timeSignature 4 2⟩, ⟨0, .keySignature 0 false⟩] =
        [⟨0, .timeSignature 4 2⟩, ⟨0, .keySignature 0 false⟩, ⟨0, .tempo micros⟩] := by
      refine Track.ordered_eq (List.perm_append_singleton _ [_, _]).symm ?_ ?_
      · simp [TimedMessage.before_iff, Message.rank]
      · simp [TimedMessage.before_iff, Message.rank]
    apply exists_of_isOk
    simp only [Track.bytes, hordered]
    clear hordered
    revert micros
    decide +kernel
  case name =>
    apply exists_of_isOk
    simp only [Track.bytes, Track.ordered, List.mergeSort_singleton]
    decide +kernel

/-- Seven beats per minute. -/
theorem tempo_of_render_seven :
    let steps : List Step := [.tempo 7]
    ∃ f bytes events data, (render {} (Session.run {} steps).song).result = .ok f ∧ f.bytes = .ok bytes ∧
      readFirst? bytes = some events ∧ tagged 0x51 events = [(0, .tag 0x51 data)] ∧ ofBigEndian data = 8571428 := by
  intro steps
  have hrender : (render {} (Session.run {} steps).song).result = .ok ⟨tempoTracks 8571428⟩ := by decide +kernel
  obtain ⟨bytes, hbytes⟩ := exists_bytes_tempoTracks 8571428 (by decide)
  obtain ⟨events, data, hread, htempo, -, hdata, -⟩ := tempo_of_render hrender hbytes
  have hquotient : 60000000 / (Session.run {} steps).song.tempo.val % 2 ^ 24 = 8571428 := by decide +kernel
  exact ⟨_, bytes, events, data, hrender, hbytes, hread, htempo, hdata.trans hquotient⟩

/-- Three beats per minute are accepted, and read back as if a quarter note had 3222784 microseconds instead of
20000000. -/
theorem tempo_of_three :
    let steps : List Step := [.tempo 3]
    ∃ f bytes events data, (Session.step {} (.tempo 3)).error = none ∧
      (render {} (Session.run {} steps).song).result = .ok f ∧ f.bytes = .ok bytes ∧
      readFirst? bytes = some events ∧ tagged 0x51 events = [(0, .tag 0x51 data)] ∧
      ofBigEndian data = 3222784 ∧ 60000000 / (Session.run {} steps).song.tempo.val = 20000000 := by
  intro steps
  have hrender : (render {} (Session.run {} steps).song).result = .ok ⟨tempoTracks 20000000⟩ := by decide +kernel
  obtain ⟨bytes, hbytes⟩ := exists_bytes_tempoTracks 20000000 (by decide)
  obtain ⟨conductor, hconductor, hread⟩ := readFirst?_of_render hrender hbytes
  have htempo := tagged_tempo hconductor
  rw [microseconds_eq] at htempo
  exact ⟨_, bytes, _, _, rfl, hrender, hbytes, hread, htempo, by decide +kernel, by decide +kernel⟩

end Songs

end LineScore.Midi
