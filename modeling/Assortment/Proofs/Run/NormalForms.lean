import Assortment.LogSettings
import Assortment.Proofs.NameTable
import Assortment.Proofs.Record.NormalForm
import Assortment.Run.Codec

/-!
# Reports and settings read back

Reports of runs and the settings of runs and of logs are records, and the value that is written for
any of them is read back as the same.  Lists of summaries, rejections and notices come back part by
part, the table of counts because its names stand in order, and the candidate of a rejection because
it is kept as it is, whatever value it is.  A notice without a field is written without the member
and read as such.

Counts are not bounded here.  A report is written with integers that data may hold exactly when its
counts are unsigned words, and from such integers no other report is read.
-/

namespace Assortment

/-- Every 64-bit word is below the bound that a count in a document has to respect. -/
theorem Word.toNat_lt_unsignedBound
    (word : UInt64) :
    word.toNat < unsignedBound := by
  have below := word.toNat_lt
  rw [unsignedBound]
  omega

/-- An unsigned word is read back from the integer that is written for it. -/
theorem Value.word?_int_toNat
    (word : UInt64) :
    word? (.int word.toNat) = some word :=
  (if_pos (Word.toNat_lt_unsignedBound word)).trans (congrArg some UInt64.ofNat_toNat)

namespace Options

/-- The form of options, none of which is needed. -/
def form : Record.Form Options where
  read := ofValue?
  write := toValue
  declared := ["drop_empty_optional", "max_variations"]
  defaults := [("drop_empty_optional", .bool false), ("max_variations", .null)]

theorem ofValue?_toValue
    (options : Options) :
    ofValue? options.toValue = some options := by
  have members :
      Record.members? .opened form.declared options.toValue =
        some
          [some (.bool options.dropEmptyOptional),
            some (options.limit.elim .null fun limit => .int limit.toNat)] :=
    Record.members?_of_written .opened (by simp)
  have limit :
      Record.nullable Value.word? (options.limit.elim .null fun limit => .int limit.toNat) =
        some options.limit := by
    cases options.limit with
    | none => rfl
    | some limit => exact congrArg (Option.map some) (Value.word?_int_toNat limit)
  rw [form] at members
  rw [ofValue?, members]
  simp [Record.withDefault, Value.bool?, limit]

theorem ofValue?_of_object
    {value : Value}
    {members : Row}
    (written : value.object? = some members) :
    ofValue? value =
      (Record.withDefault false Value.bool? (members.get? "drop_empty_optional")).bind
        fun dropEmptyOptional =>
          (Record.withDefault none (Record.nullable Value.word?)
            (members.get? "max_variations")).bind
            fun limit => some { dropEmptyOptional := dropEmptyOptional, limit := limit } := by
  rw [ofValue?, Record.members?_opened_of_object written]
  rfl

theorem readsMembers_form :
    form.ReadsMembers := by
  intro left right same
  simp only [form, ofValue?] at same ⊢
  rw [same]

/-- Writing options in full normalizes whatever they were read from. -/
theorem normalizes_form :
    form.Normalizes := by
  apply readsMembers_form.normalizes (by decide) ofValue?_toValue fun _ => ⟨_, rfl, rfl⟩
  case missing =>
    intro members default listed absent
    have nothing := OrderedMap.get?_eq_none_iff.2 absent
    simp only [form, ofValue?_of_object (Value.object?_entries _)]
    rcases List.mem_pair.1 listed with rfl | rfl
    · simp [nothing, Record.withDefault, Value.bool?]
    · simp [nothing, Record.withDefault, Record.nullable]
  case representable_iff =>
    rintro ⟨dropEmptyOptional, _ | limit⟩
    · simp [form, toValue, Value.Representable.null]
    · simpa [form, toValue] using limit.toNat_lt
  case fits => exact fun _ _ _ _ => trivial

end Options

namespace Rejection

/-- Whether the candidate is a value of the data. -/
def Fits (rejection : Rejection) : Prop :=
  rejection.value.Representable

/-- The form of rejections, both members of which are needed. -/
def form : Record.Form Rejection where
  read := ofValue?
  write := toValue
  declared := ["value", "rule"]
  fits := Fits

theorem ofValue?_toValue
    (rejection : Rejection) :
    ofValue? rejection.toValue = some rejection := by
  have members :
      Record.members? .opened form.declared rejection.toValue =
        some [some rejection.value, some (.string rejection.rule)] :=
    Record.members?_of_written .opened (by simp)
  rw [form] at members
  rw [ofValue?, members]
  rfl

theorem readsMembers_form :
    form.ReadsMembers := by
  intro left right same
  simp only [form, ofValue?] at same ⊢
  rw [same]

theorem representable_toValue_iff
    {rejection : Rejection} :
    rejection.toValue.Representable ↔ rejection.Fits := by
  simp [toValue, Fits]

theorem readsWithin :
    Record.ReadsWithin ofValue? Fits := by
  intro value rejection representable read
  rw [ofValue?] at read
  split at read
  · next candidate rule found =>
    have given := representable.of_members? found
    rcases Option.bind_eq_some_iff.1 read with ⟨kept, keptRead, read⟩
    rcases Option.bind_eq_some_iff.1 read with ⟨text, _, same⟩
    cases same
    exact Record.ReadsWithin.kept.required (given candidate (by simp)) keptRead
  · cases read

/-- Writing a rejection in full normalizes whatever it was read from. -/
theorem normalizes_form :
    form.Normalizes := by
  apply readsMembers_form.normalizes (by decide) ofValue?_toValue fun _ => ⟨_, rfl, rfl⟩
  case missing => rintro _ _ ⟨⟩
  case representable_iff => exact fun _ => representable_toValue_iff
  case fits => exact readsWithin

end Rejection

namespace FieldSummary

/-- Whether the counts of a summary are words and its rejections are of the data. -/
structure Fits (summary : FieldSummary) : Prop where
  candidates : summary.candidates < 2 ^ 64
  accepted : summary.accepted < 2 ^ 64
  rejections : ∀ rejection ∈ summary.rejections, rejection.Fits

/-- The form of the summaries of fields, all members of which are needed. -/
def form : Record.Form FieldSummary where
  read := ofValue?
  write := toValue
  declared := ["field", "required", "defaulted", "candidates", "accepted", "rejections"]
  fits := Fits

theorem ofValue?_toValue
    (summary : FieldSummary) :
    ofValue? summary.toValue = some summary := by
  have members :
      Record.members? .opened form.declared summary.toValue =
        some
          [some (.string summary.field), some (.bool summary.required),
            some (.bool summary.defaulted), some (.int summary.candidates),
            some (.int summary.accepted),
            some (.array (summary.rejections.map Rejection.toValue))] :=
    Record.members?_of_written .opened (by simp)
  have rejections :
      Record.listOf Rejection.ofValue? (.array (summary.rejections.map Rejection.toValue)) =
        some summary.rejections :=
    Record.readAll_map Rejection.ofValue?_toValue summary.rejections
  rw [form] at members
  rw [ofValue?, members]
  simp only [Record.required, Option.bind_some, rejections]
  rfl

theorem readsMembers_form :
    form.ReadsMembers := by
  intro left right same
  simp only [form, ofValue?] at same ⊢
  rw [same]

theorem representable_toValue_iff
    {summary : FieldSummary} :
    summary.toValue.Representable ↔ summary.Fits := by
  have parts :
      summary.toValue.Representable ↔
        summary.candidates < 2 ^ 64 ∧ summary.accepted < 2 ^ 64 ∧
          ∀ rejection ∈ summary.rejections, rejection.Fits := by
    simp [toValue, Rejection.representable_toValue_iff]
  rw [parts]
  constructor
  · rintro ⟨candidates, accepted, rejections⟩
    exact ⟨candidates, accepted, rejections⟩
  · rintro ⟨candidates, accepted, rejections⟩
    exact ⟨candidates, accepted, rejections⟩

theorem readsWithin :
    Record.ReadsWithin ofValue? Fits := by
  intro value summary representable read
  rw [ofValue?] at read
  split at read
  · next _ _ _ candidates accepted rejections found =>
    have given := representable.of_members? found
    rcases Option.bind_eq_some_iff.1 read with ⟨_, _, read⟩
    rcases Option.bind_eq_some_iff.1 read with ⟨_, _, read⟩
    rcases Option.bind_eq_some_iff.1 read with ⟨_, _, read⟩
    rcases Option.bind_eq_some_iff.1 read with ⟨_, candidatesRead, read⟩
    rcases Option.bind_eq_some_iff.1 read with ⟨_, acceptedRead, read⟩
    rcases Option.bind_eq_some_iff.1 read with ⟨_, rejectionsRead, same⟩
    cases same
    constructor
    case candidates =>
      exact Record.ReadsWithin.nat?.required (given candidates (by simp)) candidatesRead
    case accepted =>
      exact Record.ReadsWithin.nat?.required (given accepted (by simp)) acceptedRead
    case rejections =>
      exact Rejection.readsWithin.listOf.required (given rejections (by simp)) rejectionsRead
  · cases read

/-- Writing a field summary in full normalizes whatever it was read from. -/
theorem normalizes_form :
    form.Normalizes := by
  apply readsMembers_form.normalizes (by decide) ofValue?_toValue fun _ => ⟨_, rfl, rfl⟩
  case missing => rintro _ _ ⟨⟩
  case representable_iff => exact fun _ => representable_toValue_iff
  case fits => exact readsWithin

end FieldSummary

namespace Notice

/-- The form of notices, in which the field is not written where there is none. -/
def form : Record.Form Notice where
  read := ofValue?
  write := toValue
  declared := ["code", "message", "field"]
  defaults := [("field", .null)]
  written := fun notice =>
    if notice.field.isSome then ["code", "message", "field"] else ["code", "message"]

theorem ofValue?_toValue
    (notice : Notice) :
    ofValue? notice.toValue = some notice := by
  rcases notice with ⟨code, message, _ | field⟩ <;> rfl

theorem readsMembers_form :
    form.ReadsMembers := by
  intro left right same
  simp only [form, ofValue?] at same ⊢
  rw [same]

theorem ofValue?_of_object
    {value : Value}
    {members : Row}
    (written : value.object? = some members) :
    ofValue? value =
      (Record.required Value.string? (members.get? "code")).bind fun code =>
        (Record.required Value.string? (members.get? "message")).bind fun message =>
          (Record.withDefault none (Record.nullable Value.string?) (members.get? "field")).bind
            fun field => some ⟨code, message, field⟩ := by
  rw [ofValue?, Record.members?_opened_of_object written]
  rfl

theorem representable_toValue
    (notice : Notice) :
    notice.toValue.Representable := by
  rcases notice with ⟨code, message, _ | field⟩
  · simp [toValue]
  · simp [toValue]

/-- Writing a notice in full normalizes whatever it was read from. -/
theorem normalizes_form :
    form.Normalizes := by
  apply readsMembers_form.normalizes (by decide) ofValue?_toValue
  case keys =>
    rintro ⟨code, message, _ | field⟩
    · exact ⟨_, rfl, rfl⟩
    · exact ⟨_, rfl, rfl⟩
  case missing =>
    intro members default listed absent
    have nothing := OrderedMap.get?_eq_none_iff.2 absent
    rw [List.mem_singleton.1 listed] at nothing ⊢
    simp only [form, ofValue?_of_object (Value.object?_entries _)]
    simp [nothing, Record.withDefault, Record.nullable]
  case representable_iff => exact fun notice => iff_of_true notice.representable_toValue trivial
  case fits => exact fun _ _ _ _ => trivial

end Notice

namespace RunReport

/-- Whether the counts of a report are words and its rejections are of the data. -/
structure Fits (report : RunReport) : Prop where
  variations : report.variations < 2 ^ 64
  duration : report.duration < 2 ^ 64
  noticeCounts : ∀ count ∈ report.noticeCounts.entries, count.2 < 2 ^ 64
  fields : ∀ summary ∈ report.fields, summary.Fits

/-- The form of reports, all members of which are needed. -/
def form : Record.Form RunReport where
  read := ofValue?
  write := toValue
  declared :=
    ["run_id", "method", "groups", "fields", "variations", "duration_ms", "warnings_by_code",
      "warnings"]
  fits := Fits

theorem ofValue?_toValue
    (report : RunReport) :
    ofValue? report.toValue = some report := by
  have members :
      Record.members? .opened form.declared report.toValue =
        some
          [some (.string report.runId), some (.string report.method),
            some (.array (report.groups.map .string)),
            some (.array (report.fields.map FieldSummary.toValue)),
            some (.int report.variations), some (.int report.duration),
            some (.object (report.noticeCounts.mapValues fun _ count => .int count).entries),
            some (.array (report.notices.map Notice.toValue))] :=
    Record.members?_of_written .opened (by simp)
  have text : ∀ text, Value.string? (.string text) = some text := fun _ => rfl
  have count : ∀ count : Nat, Value.nat? (.int count) = some count := fun _ => rfl
  have groups :
      Record.listOf Value.string? (.array (report.groups.map .string)) = some report.groups :=
    Record.readAll_map text report.groups
  have fields :
      Record.listOf FieldSummary.ofValue? (.array (report.fields.map FieldSummary.toValue)) =
        some report.fields :=
    Record.readAll_map FieldSummary.ofValue?_toValue report.fields
  have noticeCounts :
      Record.mapOf Value.nat?
          (.object (report.noticeCounts.mapValues fun _ count => .int count).entries) =
        some report.noticeCounts.entries :=
    Record.mapOf_object_map count report.noticeCounts.ascending.nodup
  have notices :
      Record.listOf Notice.ofValue? (.array (report.notices.map Notice.toValue)) =
        some report.notices :=
    Record.readAll_map Notice.ofValue?_toValue report.notices
  rw [form] at members
  rw [ofValue?, members]
  simp [Record.required, text, count, groups, fields, noticeCounts, notices,
    NameTable.ofList_entries]

theorem readsMembers_form :
    form.ReadsMembers := by
  intro left right same
  simp only [form, ofValue?] at same ⊢
  rw [same]

theorem representable_toValue_iff
    {report : RunReport} :
    report.toValue.Representable ↔ report.Fits := by
  have parts :
      report.toValue.Representable ↔
        (∀ summary ∈ report.fields, summary.Fits) ∧ report.variations < 2 ^ 64 ∧
          report.duration < 2 ^ 64 ∧
          ∀ count ∈ report.noticeCounts.entries, count.2 < 2 ^ 64 := by
    have counts :
        (∀ member ∈ (report.noticeCounts.mapValues fun _ (count : Nat) => Value.int count).entries,
          member.2.Representable) ↔
          ∀ count ∈ report.noticeCounts.entries, count.2 < 2 ^ 64 :=
      List.forall_mem_map.trans <|
        forall₂_congr fun _ _ =>
          Value.representable_int_iff.trans Word.representable_natCast_iff
    simp [toValue, FieldSummary.representable_toValue_iff, Notice.representable_toValue, counts,
      -Prod.forall]
  rw [parts]
  constructor
  · rintro ⟨fields, variations, duration, noticeCounts⟩
    exact ⟨variations, duration, noticeCounts, fields⟩
  · rintro ⟨variations, duration, noticeCounts, fields⟩
    exact ⟨fields, variations, duration, noticeCounts⟩

theorem readsWithin :
    Record.ReadsWithin ofValue? Fits := by
  intro value report representable read
  rw [ofValue?] at read
  split at read
  · next _ _ _ fields variations duration noticeCounts _ found =>
    have given := representable.of_members? found
    rcases Option.bind_eq_some_iff.1 read with ⟨_, _, read⟩
    rcases Option.bind_eq_some_iff.1 read with ⟨_, _, read⟩
    rcases Option.bind_eq_some_iff.1 read with ⟨_, _, read⟩
    rcases Option.bind_eq_some_iff.1 read with ⟨_, fieldsRead, read⟩
    rcases Option.bind_eq_some_iff.1 read with ⟨_, variationsRead, read⟩
    rcases Option.bind_eq_some_iff.1 read with ⟨_, durationRead, read⟩
    rcases Option.bind_eq_some_iff.1 read with ⟨counts, noticeCountsRead, read⟩
    rcases Option.bind_eq_some_iff.1 read with ⟨_, _, same⟩
    cases same
    constructor
    case variations =>
      exact Record.ReadsWithin.nat?.required (given variations (by simp)) variationsRead
    case duration =>
      exact Record.ReadsWithin.nat?.required (given duration (by simp)) durationRead
    case noticeCounts =>
      -- The counts are ordered after they were read, which keeps them only if no name recurs.
      have distinct : (Entries.keys counts).Nodup := by
        rcases Option.bind_eq_some_iff.1 noticeCountsRead with ⟨_, _, found⟩
        exact Record.nodup_keys_of_mapOf found
      intro count listed
      have bounded :=
        Record.ReadsWithin.nat?.mapOf.required (given noticeCounts (by simp)) noticeCountsRead
      exact bounded count ((NameTable.mem_entries_ofList_iff distinct).1 listed)
    case fields =>
      exact FieldSummary.readsWithin.listOf.required (given fields (by simp)) fieldsRead
  · cases read

/-- Writing a report in full normalizes whatever it was read from. -/
theorem normalizes_form :
    form.Normalizes := by
  apply readsMembers_form.normalizes (by decide) ofValue?_toValue fun _ => ⟨_, rfl, rfl⟩
  case missing => rintro _ _ ⟨⟩
  case representable_iff => exact fun _ => representable_toValue_iff
  case fits => exact readsWithin

end RunReport

namespace LogSettings

/-- The form of the settings of the log, neither of which is needed. -/
def form : Record.Form LogSettings where
  read := ofValue?
  write := toValue
  declared := ["format", "filter"]
  defaults := [("format", .string "plain"), ("filter", .string "info")]

theorem ofValue?_toValue
    (settings : LogSettings) :
    ofValue? settings.toValue = some settings := by
  rcases settings with ⟨_ | _, filter⟩ <;> rfl

theorem ofValue?_of_object
    {value : Value}
    {members : Row}
    (written : value.object? = some members) :
    ofValue? value =
      (Record.withDefault .plain LogStyle.ofValue? (members.get? "format")).bind fun style =>
        (Record.withDefault "info" Value.string? (members.get? "filter")).bind fun filter =>
          some { style := style, filter := filter } := by
  rw [ofValue?, Record.members?_opened_of_object written]
  rfl

theorem readsMembers_form :
    form.ReadsMembers := by
  intro left right same
  simp only [form, ofValue?] at same ⊢
  rw [same]

/-- Writing log settings in full normalizes whatever they were read from. -/
theorem normalizes_form :
    form.Normalizes := by
  apply readsMembers_form.normalizes (by decide) ofValue?_toValue fun _ => ⟨_, rfl, rfl⟩
  case missing =>
    intro members default listed absent
    have nothing := OrderedMap.get?_eq_none_iff.2 absent
    have plain : LogStyle.ofValue? (.string "plain") = some .plain := rfl
    simp only [form, ofValue?_of_object (Value.object?_entries _)]
    rcases List.mem_pair.1 listed with rfl | rfl
    · simp [nothing, Record.withDefault, plain]
    · simp [nothing, Record.withDefault, Value.string?]
  case representable_iff => simp [form, toValue]
  case fits => exact fun _ _ _ _ => trivial

end LogSettings

/-- Reports, their summaries, rejections and notices, and the settings of runs and of the log are
read back from what is written for them, which is a normal form of all that is read as they are. -/
theorem Record.Form.reports_and_settings_normalize :
    RunReport.form.Normalizes ∧ FieldSummary.form.Normalizes ∧ Rejection.form.Normalizes ∧
      Notice.form.Normalizes ∧ Options.form.Normalizes ∧ LogSettings.form.Normalizes :=
  ⟨RunReport.normalizes_form, FieldSummary.normalizes_form, Rejection.normalizes_form,
    Notice.normalizes_form, Options.normalizes_form, LogSettings.normalizes_form⟩

end Assortment
