import LineScore.Proofs.Rendering

/-! Data bytes. A data byte is below 128, which is what tells it from a status byte, and a note that begins with
velocity zero ends instead. Pitches are checked before a note is written; velocities are not, and all that
stops them is the size of a byte. So a file can be read if and only if the velocities that its notes got from
the settings are at most 127, and it then begins as many notes as have a velocity of at least one. -/

namespace LineScore

namespace Midi

section Messages

/-- The data of a message to a channel. -/
def Message.data : Message → List Int
  | .controller _ number value => [number, value]
  | .program _ number => [number]
  | .noteOn _ pitch velocity => [pitch, velocity]
  | .noteOff _ pitch velocity => [pitch, velocity]
  | _ => []

/-- A message to a channel is written as a status byte and its data. -/
theorem Message.bytes_eq_data {m : Message} {bytes : List UInt8} (hbytes : m.bytes = .ok bytes)
    (hdata : m.data ≠ []) : bytes.tail.map (fun b => (b.toNat : Int)) = m.data := by
  cases m with
  | controller channel number value =>
      obtain ⟨status, hstatus, hbytes⟩ := exists_of_bind_eq_ok hbytes
      obtain ⟨n, hn, hbytes⟩ := exists_of_bind_eq_ok hbytes
      obtain ⟨v, hv, hbytes⟩ := exists_of_bind_eq_ok hbytes
      cases hbytes
      simp [data, toNat_of_byte? hn, toNat_of_byte? hv]
  | program channel number =>
      obtain ⟨status, hstatus, hbytes⟩ := exists_of_bind_eq_ok hbytes
      obtain ⟨n, hn, hbytes⟩ := exists_of_bind_eq_ok hbytes
      cases hbytes
      simp [data, toNat_of_byte? hn]
  | noteOn channel pitch velocity =>
      obtain ⟨status, hstatus, hbytes⟩ := exists_of_bind_eq_ok hbytes
      obtain ⟨p, hp, hbytes⟩ := exists_of_bind_eq_ok hbytes
      obtain ⟨v, hv, hbytes⟩ := exists_of_bind_eq_ok hbytes
      cases hbytes
      simp [data, toNat_of_byte? hp, toNat_of_byte? hv]
  | noteOff channel pitch velocity =>
      obtain ⟨status, hstatus, hbytes⟩ := exists_of_bind_eq_ok hbytes
      obtain ⟨p, hp, hbytes⟩ := exists_of_bind_eq_ok hbytes
      obtain ⟨v, hv, hbytes⟩ := exists_of_bind_eq_ok hbytes
      cases hbytes
      simp [data, toNat_of_byte? hp, toNat_of_byte? hv]
  | _ => exact absurd rfl hdata

theorem Message.data_byte {m : Message} {bytes : List UInt8} (hbytes : m.bytes = .ok bytes) {d : Int}
    (hd : d ∈ m.data) : 0 ≤ d ∧ d ≤ 255 := by
  rw [← bytes_eq_data hbytes (List.ne_nil_of_mem hd)] at hd
  obtain ⟨b, -, rfl⟩ := List.mem_map.mp hd
  have hb := b.toNat_lt
  omega

/-- Whether a reader does not take a message, whatever follows it. -/
def Message.IsRefused (m : Message) : Prop :=
  ∀ bytes rest, m.bytes = .ok bytes → takeEvent? (bytes ++ rest) = none

theorem takeEvent?_of_loud (kind : Nat) {channel : Nat} {pitch velocity : Int} (hkind : kind < 15)
    (hcount : dataCount? kind = some 2) (hchannel : channel < 16) (hloud : 127 < velocity) {bytes : List UInt8}
    (hbytes : (do
      let status ← byte? ((16 * kind : Nat) + channel)
      let pitch ← byte? pitch
      let velocity ← byte? velocity
      return [status, pitch, velocity]) = .ok bytes) (rest : List UInt8) :
    takeEvent? (bytes ++ rest) = none := by
  obtain ⟨status, hstatus, hbytes⟩ := exists_of_bind_eq_ok hbytes
  obtain ⟨p, hp, hbytes⟩ := exists_of_bind_eq_ok hbytes
  obtain ⟨v, hv, hbytes⟩ := exists_of_bind_eq_ok hbytes
  cases hbytes
  have hwide : ¬ v.toNat < 128 := by
    have hvalue := toNat_of_byte? hv
    omega
  have hlength : dataCount? kind = some [p, v].length := hcount
  have htaken := takeEvent?_status kind hkind hchannel hstatus hlength rest
  simpa [hwide] using htaken

/-- Both messages of a note that is too loud are refused. -/
theorem isRefused_of_loud {channel : Nat} (hchannel : channel < 16) {p : Rat × TimedNote}
    (hloud : 127 < p.2.velocity) : ∀ m ∈ [strikes channel p, releases channel p], m.message.IsRefused := by
  intro m hm
  simp only [List.mem_cons, List.not_mem_nil, or_false] at hm
  rcases hm with rfl | rfl
  · exact fun bytes rest hbytes => takeEvent?_of_loud 0x9 (by decide) rfl hchannel hloud hbytes rest
  · exact fun bytes rest hbytes => takeEvent?_of_loud 0x8 (by decide) rfl hchannel hloud hbytes rest

end Messages

section Tracks

theorem mapM_eq_none_of_mem {α β : Type} {f : α → Option β} {xs : List α} {x : α} (hx : x ∈ xs)
    (hnone : f x = none) : xs.mapM f = none := by
  induction xs with
  | nil => cases hx
  | cons first rest ih =>
      rw [List.mapM_cons]
      rcases List.mem_cons.mp hx with rfl | hx
      · rw [hnone]
        rfl
      · rw [ih hx]
        cases f first <;> rfl

theorem exists_bytes_of_mem_messages {messages : List TimedMessage} {previous : Int} {bytes : List UInt8}
    (h : Track.messageBytes previous messages = .ok bytes) : ∀ m ∈ messages, ∃ b, m.message.bytes = .ok b := by
  induction messages generalizing previous bytes with
  | nil => exact fun m hm => absurd hm List.not_mem_nil
  | cons m rest ih =>
      obtain ⟨here, hhere, h⟩ := exists_of_bind_eq_ok h
      obtain ⟨others, hothers, -⟩ := exists_of_bind_eq_ok h
      exact List.forall_mem_cons.mpr ⟨⟨here, hhere⟩, ih hothers⟩

theorem Track.exists_bytes_of_mem {t : Track} {bytes : List UInt8} (h : t.bytes = .ok bytes) :
    ∀ m ∈ t, ∃ b, m.message.bytes = .ok b := by
  obtain ⟨messages, hmessages, -⟩ := exists_of_bind_eq_ok h
  intro m hm
  exact exists_bytes_of_mem_messages hmessages m (t.ordered_perm.mem_iff.mpr hm)

theorem readEvents?_of_none {bytes : List UInt8} (h : takeTimed? bytes = none) (tick : Nat) :
    readEvents? tick bytes = none := by
  rw [readEvents?]
  split
  · rfl
  · next hsome =>
      rw [h] at hsome
      cases hsome

/-- A reader stops at the first message that it refuses. -/
theorem readEvents?_of_refused (messages : List TimedMessage) {previous : Int} (hstart : 0 ≤ previous)
    (hall : ∀ m ∈ messages, m.message.Fits ∨ m.message.IsRefused)
    (hrefused : ∃ m ∈ messages, m.message.IsRefused)
    (hticks : (previous :: messages.map TimedMessage.tick).IsChain (· ≤ ·)) {bytes : List UInt8}
    (hbytes : Track.messageBytes previous messages = .ok bytes) :
    readEvents? previous.toNat (bytes ++ Track.ending) = none := by
  induction messages generalizing previous bytes with
  | nil => simp at hrefused
  | cons m rest ih =>
      obtain ⟨here, hhere, hbytes⟩ := exists_of_bind_eq_ok hbytes
      obtain ⟨others, hothers, hbytes⟩ := exists_of_bind_eq_ok hbytes
      cases hbytes
      obtain ⟨hm, hlater⟩ := List.forall_mem_cons.mp hall
      obtain ⟨hle, hchain⟩ := List.isChain_cons_cons.mp hticks
      have hdelta : ¬ m.tick - previous < 0 := by omega
      rw [List.append_assoc, List.append_assoc]
      -- either the reader stops here, or it takes this message and stops at a later one
      by_cases hfirst : m.message.IsRefused
      · refine readEvents?_of_none ?_ _
        simp only [takeTimed?, deltaBytes, if_neg hdelta, takeQuantity?_quantity, bind, Option.bind,
          hfirst here _ hhere]
      · have htimed := takeTimed?_delta (sub_nonneg.mpr hle)
          (takeEvent?_bytes (hm.resolve_right hfirst) hhere (others ++ Track.ending))
        have htick : previous.toNat + (m.tick - previous).toNat = m.tick.toNat := by omega
        have hnext : ∃ m ∈ rest, m.message.IsRefused := by simpa [hfirst] using hrefused
        rw [readEvents?_of_event htimed m.message.event_ne_ending, htick,
          ih (hstart.trans hle) hlater hnext hchain hothers]
        rfl

theorem Track.reading?_of_refused {t : Track} {bytes : List UInt8} (hbytes : t.bytes = .ok bytes)
    (hticks : ∀ m ∈ t, 0 ≤ m.tick) (hall : ∀ m ∈ t, m.message.Fits ∨ m.message.IsRefused)
    (hrefused : ∃ m ∈ t, m.message.IsRefused) : t.reading? = none := by
  obtain ⟨messages, hmessages, -⟩ := exists_of_bind_eq_ok hbytes
  have hmem : ∀ m, m ∈ t.ordered ↔ m ∈ t := fun m => t.ordered_perm.mem_iff
  rw [reading?, hmessages]
  refine readEvents?_of_refused t.ordered le_rfl (fun m hm => hall m ((hmem m).mp hm)) ?_
    (ordered_ticks hticks) hmessages
  obtain ⟨m, hm, hfirst⟩ := hrefused
  exact ⟨m, (hmem m).mpr hm, hfirst⟩

end Tracks

section Voices

variable {settings : TimelineSettings} {v : Voice} {channel : Nat}

theorem strikes_mem_performed {t : Timeline} {p : Rat × TimedNote} (hp : p ∈ placed 0 t.notes) :
    strikes channel p ∈ performed channel t :=
  mem_performed.mpr (Or.inr ⟨p, hp, List.mem_cons_self⟩)

/-- The data of what opens a track are small. -/
theorem data_opening (program : Program) : ∀ m ∈ opening channel program, ∀ d ∈ m.message.data, d ≤ 127 := by
  have hprogram := program.isLt
  intro m hm d hd
  simp only [opening, List.mem_cons, List.not_mem_nil, or_false] at hm
  rcases hm with rfl | rfl | rfl
  · cases hd
  · have hvalues : d = 7 ∨ d = 127 := by simpa [Message.data, volumeController, fullVolume] using hd
    omega
  · rw [List.mem_singleton.mp hd]
    omega

/-- The data bytes of a voice are small exactly if the velocities of its notes are. -/
theorem data_performed_iff {t : Timeline} (hrendered : ∀ p ∈ placed 0 t.notes, Rendered p) :
    (∀ m ∈ performed channel t, ∀ d ∈ m.message.data, d ≤ 127) ↔ ∀ x ∈ t.notes, x.velocity ≤ 127 := by
  rw [← forall_mem_placed 0]
  constructor
  · intro hsmall p hp
    exact hsmall _ (strikes_mem_performed hp) p.2.velocity (by simp [strikes, Message.data])
  · intro hvelocity m hm d hd
    rcases mem_performed.mp hm with hopening | ⟨p, hp, hnote⟩
    · exact data_opening _ m hopening d hd
    · have hpitch := (hrendered p hp).pitch_le
      have hloud := hvelocity p hp
      have hdata : m.message.data = [p.2.pitch, p.2.velocity] := by
        simp only [List.mem_cons, List.not_mem_nil, or_false] at hnote
        rcases hnote with rfl | rfl <;> rfl
      rw [hdata] at hd
      rcases List.mem_pair.mp hd with rfl | rfl
      · exact hpitch
      · exact hloud

/-- The velocity that a message begins a note with. -/
def Message.strike? : Message → Option Int
  | .noteOn _ _ velocity => some velocity
  | _ => none

theorem strike_performed_iff {t : Timeline} :
    (∀ m ∈ performed channel t, ∀ velocity ∈ m.message.strike?, 1 ≤ velocity) ↔ ∀ x ∈ t.notes, 1 ≤ x.velocity := by
  rw [← forall_mem_placed 0]
  constructor
  · intro hstrikes p hp
    exact hstrikes _ (strikes_mem_performed hp) _ rfl
  · intro hvelocity m hm velocity hstrike
    rcases mem_performed.mp hm with hopening | ⟨p, hp, hnote⟩
    · simp only [opening, List.mem_cons, List.not_mem_nil, or_false] at hopening
      rcases hopening with rfl | rfl | rfl <;> cases hstrike
    · simp only [List.mem_cons, List.not_mem_nil, or_false] at hnote
      rcases hnote with rfl | rfl
      · cases hstrike
        exact hvelocity p hp
      · cases hstrike

/-- No message of a voice comes before the start. -/
theorem tick_performed (hstaccato : 0 ≤ settings.staccatoLength) (hevents : ∀ e ∈ v.events, 0 < e.length) :
    ∀ m ∈ performed channel (Timeline.ofVoice settings v), 0 ≤ m.tick := by
  intro m hm
  rcases mem_performed.mp hm with hopening | ⟨p, hp, hnote⟩
  · simp only [opening, List.mem_cons, List.not_mem_nil, or_false] at hopening
    rcases hopening with rfl | rfl | rfl <;> exact le_rfl
  · obtain ⟨honset, hsound⟩ := ticks_nonneg_of_mem_placed hstaccato hevents p hp
    simp only [List.mem_cons, List.not_mem_nil, or_false] at hnote
    rcases hnote with rfl | rfl
    · exact honset
    · exact add_nonneg honset hsound

/-- The track of a voice with a note that is too loud cannot be read. -/
theorem reading?_of_loud (hchannel : channel < 16) (hstaccato : 0 ≤ settings.staccatoLength)
    (hevents : ∀ e ∈ v.events, 0 < e.length)
    (hrendered : ∀ p ∈ placed 0 (Timeline.ofVoice settings v).notes, Rendered p)
    (hlow : ∀ x ∈ (Timeline.ofVoice settings v).notes, 0 ≤ x.velocity)
    (hloud : ∃ x ∈ (Timeline.ofVoice settings v).notes, 127 < x.velocity) {bytes : List UInt8}
    (hbytes : (performed channel (Timeline.ofVoice settings v)).bytes = .ok bytes) :
    (performed channel (Timeline.ofVoice settings v)).reading? = none := by
  refine Track.reading?_of_refused hbytes (tick_performed hstaccato hevents) (fun m hm => ?_) ?_
  · rcases mem_performed.mp hm with hopening | ⟨p, hp, hnote⟩
    · exact Or.inl (opening_fits hchannel _ m hopening).2
    · by_cases hsoft : p.2.velocity ≤ 127
      · obtain ⟨honset, hsound⟩ := ticks_nonneg_of_mem_placed hstaccato hevents p hp
        have hnonneg := (forall_mem_placed 0).mpr hlow p hp
        exact Or.inl (fits_of_rendered hchannel (hrendered p hp) honset hsound hnonneg hsoft m hnote).2
      · exact Or.inr (isRefused_of_loud hchannel (not_le.mp hsoft) m hnote)
  · obtain ⟨x, hx, hvelocity⟩ := hloud
    rw [← map_snd_placed (Timeline.ofVoice settings v).notes 0] at hx
    obtain ⟨p, hp, rfl⟩ := List.mem_map.mp hx
    exact ⟨_, strikes_mem_performed hp, isRefused_of_loud hchannel hvelocity _ List.mem_cons_self⟩

/-- Whether a reader takes an event for the beginning of a note. -/
def FileEvent.isStrike : FileEvent → Bool
  | .channel 0x9 _ [_, velocity] => 1 ≤ velocity
  | _ => false

theorem countP_keyed (channel : Nat) (notes : List (Rat × TimedNote)) :
    (keyed channel notes).countP (fun m => m.event.2.isStrike) = notes.countP fun p => 1 ≤ p.2.velocity := by
  induction notes with
  | nil => rfl
  | cons p rest ih =>
      have hstrike : (strikes channel p).event.2.isStrike = decide (1 ≤ p.2.velocity) := by
        change decide (1 ≤ p.2.velocity.toNat) = _
        rw [decide_eq_decide]
        omega
      have hrelease : (releases channel p).event.2.isStrike = false := rfl
      rw [keyed, List.flatMap_cons, ← keyed, List.countP_append, ih, List.countP_cons, List.countP_cons,
        List.countP_cons, List.countP_nil, hstrike, hrelease]
      simp [Nat.add_comm]

/-- As many notes begin in the events of a voice as have a velocity to begin with. -/
theorem countP_events_performed (channel : Nat) (t : Timeline) :
    (performed channel t).events.countP (fun e => e.2.isStrike) = t.notes.countP fun x => 1 ≤ x.velocity := by
  have hopening : (opening channel t.instrument.program).countP (fun m => m.event.2.isStrike) = 0 := rfl
  calc (performed channel t).events.countP (fun e => e.2.isStrike)
      = (performed channel t).countP fun m => m.event.2.isStrike := by
        rw [Track.events, List.countP_map, (performed channel t).ordered_perm.countP_eq]
        rfl
    _ = (placed 0 t.notes).countP fun p => 1 ≤ p.2.velocity := by
        rw [performed, List.countP_append, hopening, countP_keyed, Nat.zero_add]
    _ = ((placed 0 t.notes).map Prod.snd).countP fun x => 1 ≤ x.velocity := by
        rw [List.countP_map]
        rfl
    _ = t.notes.countP fun x => 1 ≤ x.velocity := by rw [map_snd_placed]

end Voices

section Songs

variable {settings : TimelineSettings} {steps : List Step} {f : File} {bytes : List UInt8}

theorem File.exists_bytes_of_mem (h : f.bytes = .ok bytes) : ∀ t ∈ f.tracks, ∃ b, t.bytes = .ok b := by
  obtain ⟨chunks, hchunks, -⟩ := exists_of_map_eq_ok h
  exact exists_of_mem_mapM hchunks

/-- The notes that have been written have velocities of one byte, from the settings. -/
theorem velocity_of_bytes (hrender : (render settings (Session.run {} steps).song).result = .ok f)
    (hbytes : f.bytes = .ok bytes) {v : Voice} (hv : v ∈ (Session.run {} steps).song.voices) :
    ∀ x ∈ (Timeline.ofVoice settings v).notes,
      (x.velocity = settings.normalVelocity ∨ x.velocity = settings.accentVelocity) ∧
        0 ≤ x.velocity ∧ x.velocity ≤ 255 := by
  obtain ⟨n, hn, rfl⟩ := List.mem_iff_getElem.mp hv
  obtain ⟨htrack, -, -⟩ := track_of_render hrender (List.getElem?_eq_getElem hn)
  obtain ⟨chunk, hchunk⟩ := File.exists_bytes_of_mem hbytes _ (List.mem_of_getElem? htrack)
  rw [← forall_mem_placed 0]
  intro p hp
  obtain ⟨b, hb⟩ := Track.exists_bytes_of_mem hchunk _ (strikes_mem_performed hp)
  exact ⟨Timeline.velocity_of_mem_emit (mem_of_mem_placed hp),
    Message.data_byte hb (by simp [strikes, Message.data])⟩

theorem read?_eq_none_of_loud (hrender : (render settings (Session.run {} steps).song).result = .ok f)
    (hbytes : f.bytes = .ok bytes) (hstaccato : 0 ≤ settings.staccatoLength) {v : Voice}
    (hv : v ∈ (Session.run {} steps).song.voices)
    (hloud : ∃ x ∈ (Timeline.ofVoice settings v).notes, 127 < x.velocity) : read? bytes = none := by
  have hvelocity := velocity_of_bytes hrender hbytes hv
  have hevents := (Session.run_positive steps).events_pos v hv
  obtain ⟨n, hn, rfl⟩ := List.mem_iff_getElem.mp hv
  obtain ⟨htrack, hchannel, hrendered⟩ := track_of_render hrender (List.getElem?_eq_getElem hn)
  have hmem := List.mem_of_getElem? htrack
  obtain ⟨chunk, hchunk⟩ := File.exists_bytes_of_mem hbytes _ hmem
  have hnone := reading?_of_loud hchannel hstaccato hevents hrendered (fun x hx => (hvelocity x hx).2.1) hloud hchunk
  rw [File.read?_eq (length_of_render hrender).2 hbytes, mapM_eq_none_of_mem hmem hnone]
  rfl

theorem read?_of_soft (hrender : (render settings (Session.run {} steps).song).result = .ok f)
    (hbytes : f.bytes = .ok bytes) (hstaccato : 0 ≤ settings.staccatoLength)
    (hsoft : ∀ v ∈ (Session.run {} steps).song.voices, ∀ x ∈ (Timeline.ofVoice settings v).notes,
      x.velocity ≤ 127) : read? bytes = some ⟨1, 960, f.tracks.map Track.events⟩ := by
  have hfits := fits_of_velocities steps hstaccato hrender fun v hv x hx =>
    ⟨(velocity_of_bytes hrender hbytes hv x hx).2.1, hsoft v hv x hx⟩
  exact File.read?_bytes hfits (length_of_render hrender).2 hbytes

theorem read?_isSome_iff (hrender : (render settings (Session.run {} steps).song).result = .ok f)
    (hbytes : f.bytes = .ok bytes) (hstaccato : 0 ≤ settings.staccatoLength) :
    (read? bytes).isSome ↔ ∀ v ∈ (Session.run {} steps).song.voices, ∀ x ∈ (Timeline.ofVoice settings v).notes,
      x.velocity ≤ 127 := by
  constructor
  · intro hread v hv x hx
    by_contra hloud
    rw [read?_eq_none_of_loud hrender hbytes hstaccato hv ⟨x, hx, not_le.mp hloud⟩] at hread
    cases hread
  · intro hsoft
    rw [read?_of_soft hrender hbytes hstaccato hsoft]
    rfl

/-- Of the data bytes in the track of a voice only the velocities can be too large, and they are what the
settings say, as far as a byte holds it; notes begin with a velocity of at least one exactly if that is so in the
timeline. If no note sounds for less than nothing, a reader takes the file exactly if no velocity in it is above
127, and then it sees as many notes begin as have a velocity of at least one. -/
theorem dataBytes_of_render (hrender : (render settings (Session.run {} steps).song).result = .ok f)
    (hbytes : f.bytes = .ok bytes) :
    let s := (Session.run {} steps).song
    let notes := fun v => (Timeline.ofVoice settings v).notes
    (∀ (n : Nat) v, s.voices[n]? = some v → ∃ track, f.tracks[n + 2]? = some track ∧
      (∀ m ∈ track, ∃ b, m.message.bytes = .ok b ∧
        (m.message.data ≠ [] → b.tail.map (fun byte => (byte.toNat : Int)) = m.message.data)) ∧
      ((∀ m ∈ track, ∀ d ∈ m.message.data, d ≤ 127) ↔ ∀ x ∈ notes v, x.velocity ≤ 127) ∧
      ((∀ m ∈ track, ∀ velocity ∈ m.message.strike?, 1 ≤ velocity) ↔ ∀ x ∈ notes v, 1 ≤ x.velocity)) ∧
    (∀ v ∈ s.voices, ∀ x ∈ notes v,
      (x.velocity = settings.normalVelocity ∨ x.velocity = settings.accentVelocity) ∧
        0 ≤ x.velocity ∧ x.velocity ≤ 255) ∧
    (0 ≤ settings.staccatoLength →
      ((read? bytes).isSome ↔ ∀ v ∈ s.voices, ∀ x ∈ notes v, x.velocity ≤ 127) ∧
      ∀ contents, read? bytes = some contents → ∀ (n : Nat) v, s.voices[n]? = some v → ∃ events,
        contents.tracks[n + 2]? = some events ∧
        events.countP (fun e => e.2.isStrike) = (notes v).countP fun x => 1 ≤ x.velocity) := by
  intro s notes
  refine ⟨fun n v hv => ?_, fun v hv => velocity_of_bytes hrender hbytes hv, fun hstaccato => ?_⟩
  · obtain ⟨htrack, -, hrendered⟩ := track_of_render hrender hv
    obtain ⟨chunk, hchunk⟩ := File.exists_bytes_of_mem hbytes _ (List.mem_of_getElem? htrack)
    refine ⟨_, htrack, fun m hm => ?_, data_performed_iff hrendered, strike_performed_iff⟩
    obtain ⟨b, hb⟩ := Track.exists_bytes_of_mem hchunk m hm
    exact ⟨b, hb, Message.bytes_eq_data hb⟩
  · have hiff := read?_isSome_iff hrender hbytes hstaccato
    refine ⟨hiff, fun contents hread n v hv => ?_⟩
    have hsoft := hiff.mp (by rw [hread]; rfl)
    rw [read?_of_soft hrender hbytes hstaccato hsoft] at hread
    obtain rfl := Option.some.inj hread
    obtain ⟨htrack, -, -⟩ := track_of_render hrender hv
    exact ⟨_, by rw [List.getElem?_map, htrack]; rfl, countP_events_performed n _⟩

def wholeNote : List Step :=
  [.instrument "vi" "Violin", .applySection 1 [{ symbol := "vi", notes := "1:c" }] none]

/-- The track of a whole note, by its velocity. -/
def wholeTrack (velocity : Int) : Track :=
  opening 0 40 ++ [⟨0, .noteOn 0 64 velocity⟩, ⟨3840, .noteOff 0 64 velocity⟩]

theorem render_wholeNote : ∀ velocity ∈ [0, 100, 200],
    (render { normalVelocity := velocity } (Session.run {} wholeNote).song).result =
      .ok ⟨plainTracks ++ [wholeTrack velocity]⟩ := by
  rw [wholeNote, run_violin]
  decide +kernel

theorem exists_bytes_wholeNote : ∀ velocity ∈ [0, 100, 200],
    ∃ bytes, File.bytes ⟨plainTracks ++ [wholeTrack velocity]⟩ = .ok bytes := by
  intro velocity hvelocity
  have hordered : (wholeTrack velocity).ordered = wholeTrack velocity :=
    List.mergeSort_of_pairwise (by simp [wholeTrack, opening, TimedMessage.before_iff, Message.rank])
  refine File.exists_bytes (List.forall_mem_append.mpr ⟨exists_bytes_of_mem_plainTracks, ?_⟩)
  refine List.forall_mem_singleton.mpr (exists_of_isOk ?_)
  simp only [Track.bytes, hordered]
  clear hordered
  revert velocity
  decide +kernel

/-- A whole note of velocity 100 is read back. -/
theorem dataBytes_of_render_whole :
    ∃ f bytes events contents, (render { normalVelocity := 100 } (Session.run {} wholeNote).song).result = .ok f ∧
      f.bytes = .ok bytes ∧ read? bytes = some contents ∧ contents.tracks[2]? = some events ∧
      events.countP (fun e => e.2.isStrike) = 1 := by
  have hrender := render_wholeNote 100 (by decide)
  obtain ⟨bytes, hbytes⟩ := exists_bytes_wholeNote 100 (by decide)
  obtain ⟨-, -, hread⟩ := dataBytes_of_render hrender hbytes
  obtain ⟨hiff, hcount⟩ := hread (by decide +kernel)
  have hsome : (read? bytes).isSome := by
    rw [hiff, wholeNote, run_violin]
    decide +kernel
  obtain ⟨contents, hcontents⟩ := Option.isSome_iff_exists.mp hsome
  obtain ⟨v, hv⟩ : ∃ v, (Session.run {} wholeNote).song.voices = [v] := by
    rw [wholeNote, run_violin]
    exact List.length_eq_one_iff.mp (by decide +kernel)
  have hnotes : ∀ v ∈ (Session.run {} wholeNote).song.voices,
      ((Timeline.ofVoice { normalVelocity := 100 } v).notes.countP fun x => 1 ≤ x.velocity) = 1 := by
    rw [wholeNote, run_violin]
    decide +kernel
  obtain ⟨events, hevents, hstrikes⟩ := hcount contents hcontents 0 v (by rw [hv]; rfl)
  rw [hnotes v (by rw [hv]; exact List.mem_singleton_self v)] at hstrikes
  exact ⟨_, bytes, events, contents, hrender, hbytes, hcontents, hevents, hstrikes⟩

/-- A whole note of velocity 200 is written all the same, with a data byte of 200, and its file cannot be read.
One of velocity 0 is written as a note that does not begin. -/
theorem dataBytes_of_loud :
    (∃ f bytes track, (render { normalVelocity := 200 } (Session.run {} wholeNote).song).result = .ok f ∧
      f.bytes = .ok bytes ∧ f.tracks[2]? = some track ∧ (∃ m ∈ track, 200 ∈ m.message.data) ∧
      read? bytes = none) ∧
    ∃ f bytes track, (render { normalVelocity := 0 } (Session.run {} wholeNote).song).result = .ok f ∧
      f.bytes = .ok bytes ∧ f.tracks[2]? = some track ∧ ∃ m ∈ track, m.message.strike? = some 0 := by
  constructor
  · have hrender := render_wholeNote 200 (by decide)
    obtain ⟨bytes, hbytes⟩ := exists_bytes_wholeNote 200 (by decide)
    have hloud : ∃ v ∈ (Session.run {} wholeNote).song.voices,
        ∃ x ∈ (Timeline.ofVoice { normalVelocity := 200 } v).notes, 127 < x.velocity := by
      rw [wholeNote, run_violin]
      decide +kernel
    obtain ⟨v, hv, hnote⟩ := hloud
    exact ⟨_, bytes, wholeTrack 200, hrender, hbytes, rfl, by decide,
      read?_eq_none_of_loud hrender hbytes (by decide +kernel) hv hnote⟩
  · have hrender := render_wholeNote 0 (by decide)
    obtain ⟨bytes, hbytes⟩ := exists_bytes_wholeNote 0 (by decide)
    exact ⟨_, bytes, wholeTrack 0, hrender, hbytes, rfl, by decide⟩

end Songs

end Midi

end LineScore
