import VisualRules.Proofs.Resolution

namespace VisualRules

/-- The two low bytes of the number are a pitch and a duration of the tables. -/
def Note.IsCode (value : Int32) : Prop := value &&& 0xff < 5 ∧ value >>> 8 &&& 0xff < 3

/-- What a kind asks of the values of a card, apart from their number. -/
def Kind.Admits : Kind → List Int32 → Prop
  | accelerometer, [mode, angle] => mode ∈ [0, 1, 2] ∧ -4 ≤ angle ∧ angle ≤ 4
  | sound, values => ∀ value ∈ values, Note.IsCode value
  | _, _ => True

/-- The first thing that is wrong with the values of a card of the kind: their number, the tilt mode,
the tilt angle, or a note. -/
inductive Kind.Refuses (values : List Int32) : Kind → Violation → Prop
  | valueCount {kind : Kind} (h : values.length ≠ kind.valueCount) :
    Refuses values kind (.valueCount kind.name kind.valueCount values.length)
  | tiltMode {mode angle : Int32} (values_eq : values = [mode, angle]) (h : mode ∉ [0, 1, 2]) :
    Refuses values .accelerometer (.unknownTiltMode mode)
  | tiltAngle {mode angle : Int32} (values_eq : values = [mode, angle])
      (mode_mem : mode ∈ [0, 1, 2]) (h : ¬(-4 ≤ angle ∧ angle ≤ 4)) :
    Refuses values .accelerometer (.tiltAngleOutOfRange angle)
  | note {before after : List Int32} {value : Int32} (length_eq : values.length = 6)
      (values_eq : values = before ++ value :: after)
      (isCode : ∀ earlier ∈ before, Note.IsCode earlier) (h : ¬Note.IsCode value) :
    Refuses values .sound (.noteOutOfRange before.length value)

namespace Card

/-- The card plays the role and is of this kind, which is one of that role. -/
structure IsOf (card : Card) (role : Role) (kind : Kind) : Prop where
  role_eq : card.role = role
  kind_eq : card.kind = kind.name
  role_of_kind : kind.role = role

/-- The card can be read in the role. -/
def Fits (card : Card) (role : Role) : Prop :=
  ∃ kind, card.IsOf role kind ∧ card.values.length = kind.valueCount ∧ kind.Admits card.values

/-- The first thing that is wrong with a card in a role: its own role, its kind, or its values. -/
inductive Breaks (card : Card) (role : Role) : Violation → Prop
  | role (h : card.role ≠ role) : Breaks card role (.unexpectedRole role card.role)
  | kind (role_eq : card.role = role) (h : ∀ kind : Kind, card.kind = kind.name → kind.role ≠ role) :
    Breaks card role (.unknownKind role card.kind)
  | values {kind : Kind} {violation : Violation} (kind_eq : card.IsOf role kind)
      (h : kind.Refuses card.values violation) : Breaks card role violation

end Card

namespace Kind

theorem name_inj {kind other : Kind} : kind.name = other.name ↔ kind = other := by
  constructor
  · intro h
    have hkind := ofName?_name kind
    rw [h, ofName?_name, Option.some.injEq] at hkind
    exact hkind.symm
  · rintro rfl
    rfl

end Kind

namespace Note

/-- To keep the low bits of a number is to divide by a power of two, for negative numbers too. -/
theorem toInt_and_of_mask {mask : Int32} {n : Nat} (hn : n < 32)
    (hmask : mask.toBitVec.toNat = (1 <<< n) - 1) (value : Int32) :
    (value &&& mask).toInt = value.toInt % (1 <<< n : Nat) := by
  rw [Nat.one_shiftLeft] at hmask ⊢
  have hdvd : ((2 ^ n : Nat) : Int) ∣ (2 ^ 32 : Nat) :=
    Int.natCast_dvd_natCast.mpr (Nat.pow_dvd_pow 2 (Nat.le_of_lt hn))
  have hkept : (value &&& mask).toBitVec.toNat = value.toBitVec.toNat % 2 ^ n := by
    rw [Int32.toBitVec_and, BitVec.toNat_and, hmask]
    exact Nat.and_two_pow_sub_one_eq_mod _ n
  have hlt : 2 * (value &&& mask).toBitVec.toNat < 2 ^ 32 := by
    have hmod := Nat.mod_lt value.toBitVec.toNat (Nat.two_pow_pos n)
    have hpow : 2 ^ n ≤ 2 ^ 31 := Nat.pow_le_pow_right (by decide) (Nat.le_of_lt_succ hn)
    omega
  calc (value &&& mask).toInt = (value.toBitVec.toNat % 2 ^ n : Nat) := by
        rw [← Int32.toInt_toBitVec, BitVec.toInt_eq_toNat_of_lt hlt, hkept]
    _ = (value.toBitVec.toNat : Int) % (2 ^ 32 : Nat) % (2 ^ n : Nat) := by
        rw [Int.natCast_emod]
        exact (Int.emod_emod_of_dvd _ hdvd).symm
    _ = value.toInt % (2 ^ n : Nat) := by
        rw [← Int.bmod_emod (m := 2 ^ 32), ← BitVec.toInt_eq_toNat_bmod, Int32.toInt_toBitVec]
        exact Int.emod_emod_of_dvd _ hdvd

theorem toInt_and_byte (value : Int32) : (value &&& 0xff).toInt = value.toInt % 256 :=
  toInt_and_of_mask (n := 8) (by decide) (by decide) value

/-- The shift keeps the sign, so it rounds down for negative numbers too. -/
theorem toInt_shift_byte (value : Int32) : (value >>> 8).toInt = value.toInt / 256 := by
  have hshift : (8 : Int32).toBitVec.smod 32 = 8#32 := by decide
  rw [← Int32.toInt_toBitVec, Int32.toBitVec_shiftRight, hshift]
  change (value.toBitVec.sshiftRight 8).toInt = _
  rw [BitVec.toInt_sshiftRight, Int32.toInt_toBitVec]
  exact Int.shiftRight_eq_div_pow _ 8

theorem isCode_iff (value : Int32) : IsCode value ↔ (ofCode value).InTables := by
  have hpitch : (ofCode value).pitch.toNat = (value.toInt % 256).toNat := by
    change (UInt8.ofNat _).toNat = _
    rw [UInt8.toNat_ofNat']
    omega
  have hduration : (ofCode value).duration.toNat = (value.toInt / 256 % 256).toNat := by
    change (UInt8.ofNat _).toNat = _
    rw [UInt8.toNat_ofNat']
    omega
  have hfive : (5 : Int32).toInt = 5 := by decide
  have hthree : (3 : Int32).toInt = 3 := by decide
  rw [IsCode, InTables, Int32.lt_iff_toInt_lt, Int32.lt_iff_toInt_lt, toInt_and_byte,
    toInt_and_byte, toInt_shift_byte, hpitch, hduration, hfive, hthree]
  change _ ↔ _ < 5 ∧ _ < 3
  omega

end Note

namespace Card

variable {card : Card} {role : Role} {kind : Kind}

theorem knownKind?_eq_some_iff : card.knownKind? = some kind ↔ card.kind = kind.name := by
  constructor
  · intro h
    have hname := List.find?_some h
    simpa [eq_comm] using hname
  · intro h
    rw [knownKind?, h, Kind.ofName?_name]

private theorem admits_or_refuses (kind : Kind) (values : List Int32) :
    (values.length = kind.valueCount ∧ kind.Admits values) ∨
      ∃ violation, kind.Refuses values violation := by
  by_cases hcount : values.length = kind.valueCount
  case neg => exact .inr ⟨_, .valueCount hcount⟩
  by_cases hadmits : kind.Admits values
  case pos => exact .inl ⟨hcount, hadmits⟩
  cases kind with
  | accelerometer =>
    obtain ⟨mode, angle, hvalues⟩ := List.length_eq_two.mp hcount
    rw [hvalues] at hadmits
    by_cases hmode : mode ∈ [0, 1, 2]
    · exact .inr ⟨_, .tiltAngle hvalues hmode fun hangle => hadmits ⟨hmode, hangle⟩⟩
    · exact .inr ⟨_, .tiltMode hvalues hmode⟩
  | sound =>
    rcases forall_or_exists_first Note.IsCode values with hall | ⟨before, value, after, hfirst⟩
    · exact absurd hall hadmits
    · exact .inr ⟨_, .note hcount hfirst.1 hfirst.2.1 hfirst.2.2⟩
  | _ => exact absurd trivial hadmits

theorem fits_or_breaks (card : Card) (role : Role) :
    card.Fits role ∨ ∃ violation, card.Breaks role violation := by
  by_cases hrole : card.role = role
  case neg => exact .inr ⟨_, .role hrole⟩
  by_cases hkind : ∃ kind, card.IsOf role kind
  case neg =>
    refine .inr ⟨_, .kind hrole ?_⟩
    intro kind hname heq
    exact hkind ⟨kind, hrole, hname, heq⟩
  obtain ⟨kind, hkind⟩ := hkind
  rcases admits_or_refuses kind card.values with hadmits | ⟨violation, hrefuses⟩
  · exact .inl ⟨kind, hkind, hadmits⟩
  · exact .inr ⟨violation, .values hkind hrefuses⟩

theorem kindFor_of_role (h : card.role ≠ role) :
    card.kindFor role = .error (.unexpectedRole role card.role) := by
  rw [kindFor, if_pos h]

private theorem kindFor_of_kind (hrole : card.role = role) (hkind : card.kind = kind.name) :
    card.kindFor role = .ok kind := by
  rw [kindFor, if_neg (not_not.mpr hrole), knownKind?_eq_some_iff.mpr hkind]

theorem kindFor_of_isOf (h : card.IsOf role kind) : card.kindFor role = .ok kind :=
  kindFor_of_kind h.role_eq h.kind_eq

private theorem kind_of_kindFor (h : card.kindFor role = .ok kind) : card.kind = kind.name := by
  unfold kindFor at h
  split at h
  · cases h
  · split at h
    · next hknown =>
      cases h
      exact knownKind?_eq_some_iff.mp hknown
    · cases h

/-- A kind of another role passes at first, but it is refused with the same words. -/
theorem kindFor_of_no_kind (hrole : card.role = role)
    (h : ∀ kind : Kind, card.kind = kind.name → kind.role ≠ role) :
    card.kindFor role = .error (.unknownKind role card.kind) ∨
      ∃ kind, card.kindFor role = .ok kind ∧ kind.role ≠ role ∧ card.kind = kind.name := by
  cases hknown : card.knownKind? with
  | none =>
    refine .inl ?_
    rw [kindFor, if_neg (not_not.mpr hrole), hknown]
  | some kind =>
    have hname := knownKind?_eq_some_iff.mp hknown
    exact .inr ⟨kind, kindFor_of_kind hrole hname, h kind hname, hname⟩

section Values

variable {n : Nat}

theorem exactly_of_toList {values : Vector Int32 n} (h : card.values = values.toList)
    (kind : Kind) :
    card.exactly n kind = .ok values := by
  have hlength : card.values.length = n := by rw [h, Vector.length_toList]
  rw [exactly, dif_pos hlength]
  congr 1
  apply Vector.toList_inj.mp
  simpa using h

private theorem exists_exactly (h : card.values.length = n) (kind : Kind) :
    ∃ values, card.exactly n kind = .ok values ∧ card.values = values.toList := by
  have hvalues :
      card.values = (⟨card.values.toArray, by simpa using h⟩ : Vector Int32 n).toList := by
    simp
  exact ⟨_, exactly_of_toList hvalues kind, hvalues⟩

private theorem exactly_of_length_ne (h : card.values.length ≠ n) (kind : Kind) :
    card.exactly n kind = .error (.valueCount kind.name n card.values.length) := by
  rw [exactly, dif_neg h]

private theorem exists_exactly_bind {α : Type} {f : Vector Int32 n → α} (h : card.values.length = n)
    (kind : Kind) : ∃ a, (card.exactly n kind >>= fun values => pure (f values)) = .ok a := by
  obtain ⟨values, hvalues, _⟩ := exists_exactly h kind
  rw [hvalues, ok_bind]
  exact ⟨_, rfl⟩

private theorem exactly_bind_of_length_ne {α : Type} {f : Vector Int32 n → Except Violation α}
    (h : card.values.length ≠ n) (kind : Kind) :
    card.exactly n kind >>= f = .error (.valueCount kind.name n card.values.length) := by
  rw [exactly_of_length_ne h, error_bind]

private theorem exists_sensorBand_bind {α : Type} {f : SensorBand n → α}
    (h : card.values.length = n + 2)
    (kind : Kind) : ∃ a, (card.sensorBand n kind >>= fun band => pure (f band)) = .ok a := by
  obtain ⟨values, hvalues, _⟩ := exists_exactly h kind
  rw [sensorBand, hvalues, ok_bind]
  exact ⟨_, rfl⟩

private theorem sensorBand_bind_of_length_ne {α : Type} {f : SensorBand n → Except Violation α}
    (h : card.values.length ≠ n + 2) (kind : Kind) :
    card.sensorBand n kind >>= f = .error (.valueCount kind.name (n + 2) card.values.length) := by
  rw [sensorBand, exactly_bind_of_length_ne h, error_bind]

end Values

private theorem exists_ofCode?_iff (mode : Int32) :
    (∃ read, TiltMode.ofCode? mode = some read) ↔ mode ∈ [0, 1, 2] := by
  simp only [List.mem_cons, List.not_mem_nil, or_false]
  unfold TiltMode.ofCode?
  by_cases htap : mode = 0
  · simp [htap]
  · by_cases hroll : mode = 1
    · simp [hroll]
    · by_cases hpitch : mode = 2
      · simp [hpitch]
      · simp [htap, hroll, hpitch]

private theorem tilt_of_mode {mode angle : Int32} (h : mode ∉ [0, 1, 2]) :
    tilt mode angle = .error (.unknownTiltMode mode) := by
  have hnone : TiltMode.ofCode? mode = none := by
    rw [Option.eq_none_iff_forall_ne_some]
    intro read hread
    exact h ((exists_ofCode?_iff mode).mp ⟨read, hread⟩)
  rw [tilt, hnone]

theorem tilt_of_angle {mode angle : Int32} (hmode : mode ∈ [0, 1, 2])
    (h : ¬(-4 ≤ angle ∧ angle ≤ 4)) : tilt mode angle = .error (.tiltAngleOutOfRange angle) := by
  obtain ⟨read, hread⟩ := (exists_ofCode?_iff mode).mpr hmode
  rw [tilt, hread]
  exact if_neg h

private theorem exists_tilt {mode angle : Int32} (hmode : mode ∈ [0, 1, 2])
    (h : -4 ≤ angle ∧ angle ≤ 4) :
    ∃ event, tilt mode angle = .ok event := by
  obtain ⟨read, hread⟩ := (exists_ofCode?_iff mode).mpr hmode
  rw [tilt, hread]
  exact ⟨_, if_pos h⟩

theorem find?_outside_eq_none {values : List Int32} (h : ∀ value ∈ values, Note.IsCode value) :
    values.zipIdx.find? (fun (value, _) => ¬(Note.ofCode value).InTables) = none := by
  rw [List.find?_eq_none]
  intro pair hpair
  have hcode := h pair.1 (List.fst_mem_of_mem_zipIdx hpair)
  simpa using (Note.isCode_iff pair.1).mp hcode

theorem notes_of_first {values : Vector Int32 soundNotes} {before after : List Int32}
    {value : Int32} (hvalues : values.toList = before ++ value :: after)
    (hbefore : ∀ earlier ∈ before, Note.IsCode earlier) (hvalue : ¬Note.IsCode value) :
    notes values = .error (.noteOutOfRange before.length value) := by
  have hout : ¬(Note.ofCode value).InTables := mt (Note.isCode_iff value).mpr hvalue
  rw [notes, hvalues, List.zipIdx_append, List.find?_append, find?_outside_eq_none hbefore,
    Option.none_or, List.zipIdx_cons, List.find?_cons_of_pos (by simpa using hout), Nat.zero_add]

private theorem exists_notes {values : Vector Int32 soundNotes}
    (h : ∀ value ∈ values.toList, Note.IsCode value) : ∃ read, notes values = .ok read := by
  rw [notes, find?_outside_eq_none h]
  exact ⟨_, rfl⟩

theorem exactly_bind_pair {f : Vector Int32 2 → Except Violation Event} {mode angle : Int32}
    (h : card.values = [mode, angle]) (kind : Kind) :
    card.exactly 2 kind >>= f = f #v[mode, angle] := by
  have hvalues : card.values = (#v[mode, angle] : Vector Int32 2).toList := h
  rw [exactly_of_toList hvalues, ok_bind]

/-- A reader for a role reads the cards that fit and names what is wrong with the others. -/
structure Reads {α : Type} (role : Role) (read : Card → Except Violation α) : Prop where
  of_fits : ∀ {card}, card.Fits role → ∃ a, read card = .ok a
  of_breaks : ∀ {card violation}, card.Breaks role violation → read card = .error violation

namespace Reads

variable {α : Type} {read : Card → Except Violation α}

/-- A reader that looks at the kind first is right if it is right about the values of each kind. -/
theorem of_kinds (herror : ∀ {card violation}, card.kindFor role = .error violation →
      read card = .error violation)
    (hother : ∀ {card kind}, card.kindFor role = .ok kind → kind.role ≠ role →
      read card = .error (.unknownKind role kind.name))
    (hadmits : ∀ {card : Card} {kind}, card.IsOf role kind →
      card.values.length = kind.valueCount → kind.Admits card.values → ∃ a, read card = .ok a)
    (hrefuses : ∀ {card : Card} {kind violation}, card.IsOf role kind →
      kind.Refuses card.values violation → read card = .error violation) :
    Reads role read where
  of_fits hfits := by
    obtain ⟨kind, hkind, hcount, hvalues⟩ := hfits
    exact hadmits hkind hcount hvalues
  of_breaks hbreaks := by
    cases hbreaks with
    | role h => exact herror (kindFor_of_role h)
    | kind hrole h =>
      rcases kindFor_of_no_kind hrole h with hunknown | ⟨kind, hknown, hne, hname⟩
      · exact herror hunknown
      · rw [hother hknown hne, hname]
    | values hkind h => exact hrefuses hkind h

end Reads

private theorem toEvent_of_other_role (h : card.kindFor .event = .ok kind)
    (hrole : kind.role ≠ .event) :
    card.toEvent = .error (.unknownKind .event kind.name) := by
  rw [toEvent, h, ok_bind]
  split
  case h_8 => rfl
  all_goals exact absurd rfl hrole

theorem reads_toEvent : Reads .event toEvent := by
  refine Reads.of_kinds ?_ toEvent_of_other_role ?_ ?_
  · intro card violation h
    rw [toEvent, h, error_bind]
  · intro card kind hkind hcount hadmits
    rw [toEvent, kindFor_of_isOf hkind, ok_bind]
    cases kind
    case proximity | groundProximity => exact exists_sensorBand_bind hcount _
    case buttons | tap | clap | timeout => exact exists_exactly_bind hcount _
    case accelerometer =>
      obtain ⟨mode, angle, hvalues⟩ := List.length_eq_two.mp hcount
      rw [hvalues] at hadmits
      obtain ⟨event, hevent⟩ := exists_tilt hadmits.1 hadmits.2
      exact ⟨event, (exactly_bind_pair hvalues _).trans hevent⟩
    all_goals exact absurd hkind.role_of_kind (by decide)
  · intro card kind violation hkind hrefuses
    rw [toEvent, kindFor_of_isOf hkind, ok_bind]
    cases hrefuses with
    | valueCount h =>
      cases kind
      case proximity | groundProximity => exact sensorBand_bind_of_length_ne h _
      case buttons | tap | clap | timeout | accelerometer => exact exactly_bind_of_length_ne h _
      all_goals exact absurd hkind.role_of_kind (by decide)
    | tiltMode hvalues h => exact (exactly_bind_pair hvalues _).trans (tilt_of_mode h)
    | tiltAngle hvalues hmode h =>
      exact (exactly_bind_pair hvalues _).trans (tilt_of_angle hmode h)
    | note => exact absurd hkind.role_of_kind (by decide)

private theorem toFilter_of_other_role (h : card.kindFor .stateFilter = .ok kind)
    (hrole : kind.role ≠ .stateFilter) :
    card.toFilter = .error (.unknownKind .stateFilter kind.name) := by
  rw [toFilter, h, ok_bind]
  split
  case h_2 => rfl
  all_goals exact absurd rfl hrole

theorem reads_toFilter : Reads .stateFilter toFilter := by
  refine Reads.of_kinds ?_ toFilter_of_other_role ?_ ?_
  · intro card violation h
    rw [toFilter, h, error_bind]
  · intro card kind hkind hcount _
    rw [toFilter, kindFor_of_isOf hkind, ok_bind]
    cases kind
    case stateFilter => exact exists_exactly_bind hcount _
    all_goals exact absurd hkind.role_of_kind (by decide)
  · intro card kind violation hkind hrefuses
    rw [toFilter, kindFor_of_isOf hkind, ok_bind]
    cases hrefuses with
    | valueCount h =>
      cases kind
      case stateFilter => exact exactly_bind_of_length_ne h _
      all_goals exact absurd hkind.role_of_kind (by decide)
    | tiltMode => exact absurd hkind.role_of_kind (by decide)
    | tiltAngle => exact absurd hkind.role_of_kind (by decide)
    | note => exact absurd hkind.role_of_kind (by decide)

private theorem toAction_of_other_role (h : card.kindFor .action = .ok kind)
    (hrole : kind.role ≠ .action) :
    card.toAction = .error (.unknownKind .action kind.name) := by
  rw [toAction, h, ok_bind]
  split
  case h_7 => rfl
  all_goals exact absurd rfl hrole

theorem reads_toAction : Reads .action toAction := by
  refine Reads.of_kinds ?_ toAction_of_other_role ?_ ?_
  · intro card violation h
    rw [toAction, h, error_bind]
  · intro card kind hkind hcount hadmits
    rw [toAction, kindFor_of_isOf hkind, ok_bind]
    cases kind
    case move | topColor | bottomColor | timer | setState => exact exists_exactly_bind hcount _
    case sound =>
      obtain ⟨values, hvalues, heq⟩ := exists_exactly (n := soundNotes) hcount .sound
      rw [heq] at hadmits
      obtain ⟨read, hread⟩ := exists_notes hadmits
      simp only [hvalues, ok_bind, hread, pure_eq_ok, exists_eq']
    all_goals exact absurd hkind.role_of_kind (by decide)
  · intro card kind violation hkind hrefuses
    rw [toAction, kindFor_of_isOf hkind, ok_bind]
    cases hrefuses with
    | valueCount h =>
      cases kind
      case move | topColor | bottomColor | sound | timer | setState =>
        exact exactly_bind_of_length_ne h _
      all_goals exact absurd hkind.role_of_kind (by decide)
    | tiltMode => exact absurd hkind.role_of_kind (by decide)
    | tiltAngle => exact absurd hkind.role_of_kind (by decide)
    | note hcount hvalues hbefore h =>
      obtain ⟨values, hexactly, heq⟩ := exists_exactly (n := soundNotes) hcount .sound
      rw [heq] at hvalues
      simp only [hexactly, ok_bind, notes_of_first hvalues hbefore h, error_bind]

end Card

def Action.kind : Action → Kind
  | move _ _ => .move
  | topColor _ => .topColor
  | bottomColor _ => .bottomColor
  | sound _ => .sound
  | timer _ => .timer
  | setState _ => .setState

theorem Card.kind_of_toAction {card : Card} {action : Action} (h : card.toAction = .ok action) :
    card.kind = action.kind.name := by
  unfold toAction at h
  rw [bind_eq_ok] at h
  obtain ⟨kind, hkind, h⟩ := h
  rw [kind_of_kindFor hkind]
  split at h
  case h_7 => cases h
  case h_4 =>
    simp only [bind_eq_ok, pure_eq_ok] at h
    obtain ⟨_, _, _, _, rfl⟩ := h
    rfl
  all_goals
    simp only [bind_eq_ok, pure_eq_ok] at h
    obtain ⟨_, _, rfl⟩ := h
    rfl

def Event.kind : Event → Kind
  | buttons _ => .buttons
  | proximity _ => .proximity
  | groundProximity _ => .groundProximity
  | tap => .tap
  | clap => .clap
  | timeout => .timeout
  | tilt _ _ => .accelerometer

private theorem TiltMode.eq_code_of_ofCode? {value : Int32} {mode : TiltMode}
    (h : ofCode? value = some mode) : value = mode.code := by
  unfold ofCode? at h
  split_ifs at h with htap hroll hpitch
  · cases h
    exact htap
  · cases h
    exact hroll
  · cases h
    exact hpitch

namespace Card

variable {card : Card} {event : Event}

theorem tilt_eq_ok {mode angle : Int32} :
    tilt mode angle = .ok event ↔ ∃ read : TiltMode, mode = read.code ∧
      -tiltResolution ≤ angle ∧ angle ≤ tiltResolution ∧ event = .tilt read angle := by
  unfold tilt
  constructor
  · intro h
    split at h
    · cases h
    · next read hread =>
      split at h
      · next hangle =>
        cases h
        exact ⟨read, TiltMode.eq_code_of_ofCode? hread, hangle.1, hangle.2, rfl⟩
      · cases h
  · rintro ⟨read, rfl, hlow, hhigh, rfl⟩
    rw [TiltMode.ofCode?_code]
    exact if_pos ⟨hlow, hhigh⟩

theorem kind_of_toEvent (h : card.toEvent = .ok event) : card.kind = event.kind.name := by
  unfold toEvent at h
  rw [bind_eq_ok] at h
  obtain ⟨kind, hkind, h⟩ := h
  rw [kind_of_kindFor hkind]
  split at h
  case h_8 => cases h
  case h_7 =>
    rw [bind_eq_ok] at h
    obtain ⟨values, _, h⟩ := h
    obtain ⟨_, _, _, _, rfl⟩ := tilt_eq_ok.mp h
    rfl
  all_goals
    simp only [bind_eq_ok, pure_eq_ok] at h
    obtain ⟨_, _, rfl⟩ := h
    rfl

theorem values_of_toEvent_tilt {mode : TiltMode} {angle : Int32}
    (h : card.toEvent = .ok (.tilt mode angle)) :
    card.values = [mode.code, angle] ∧ -tiltResolution ≤ angle ∧ angle ≤ tiltResolution := by
  unfold toEvent at h
  rw [bind_eq_ok] at h
  obtain ⟨kind, _, h⟩ := h
  split at h
  case h_7 =>
    by_cases hlength : card.values.length = 2
    · obtain ⟨code, step, hvalues⟩ := List.length_eq_two.mp hlength
      rw [exactly_bind_pair hvalues] at h
      obtain ⟨read, rfl, hlow, hhigh, heq⟩ := tilt_eq_ok.mp h
      cases heq
      exact ⟨hvalues, hlow, hhigh⟩
    · rw [exactly_bind_of_length_ne hlength] at h
      cases h
  all_goals simp [map_eq_ok] at h

end Card

end VisualRules
