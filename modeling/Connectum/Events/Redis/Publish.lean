import Connectum.Events.Redis.Envelope
import Connectum.JsMap
import Mathlib.Data.List.Nodup

/-! The publishing side of the Redis adapter, and the event that a reader makes of what it has
written. -/
namespace Connectum.Events.Redis

/-- A fresh uuid, the clock as a text, and base64 encoding. -/
structure PublishEnvironment where
  randomUUID : String
  isoNow : String
  toBase64 : List UInt8 → String

/-- The core field-value pairs. -/
def coreFields (env : PublishEnvironment) (eventType : String) (payload : List UInt8) :
    List (String × String) :=
  [("eventId", env.randomUUID), ("eventType", eventType), ("payload", env.toBase64 payload),
    ("publishedAt", env.isoNow)]

/-- The fields and values of one stream entry. -/
def entryFields (env : PublishEnvironment) (eventType : String) (payload : List UInt8)
    (metadata : List (String × String)) : List (String × String) :=
  coreFields env eventType payload ++ metadata.map fun e => (metaPrefix ++ e.1, e.2)

/-- The flat array in which fields and values take turns. -/
def flatten (fields : List (String × String)) : List String := fields.flatMap fun e => [e.1, e.2]

/-- `publish()`, up to the arguments of `XADD`: Redis chooses the id of the entry. -/
def publish (connected : Bool) (maxLen : Option ℕ) (env : PublishEnvironment) (eventType : String)
    (payload : List UInt8) (metadata : List (String × String)) : Except String (List String) :=
  if ¬ connected then .error "RedisAdapter: not connected"
  else
    let trimming := match maxLen with
      | none => []
      | some n => ["MAXLEN", "~", toString n]
    .ok (streamKey eventType :: trimming ++
      "*" :: flatten (entryFields env eventType payload metadata))

/-- The entry that `XADD` adds with these arguments: its fields follow the trimming and `*`. -/
def stored (entryId : String) (args : List String) : Entry where
  key := args.headD ""
  entryId := entryId
  fields := if args[1]? = some "MAXLEN" then args.drop 5 else args.drop 2

variable {env : PublishEnvironment} {map fields metadata : List (String × String)}
  {eventType key value : String} {payload : List UInt8}

theorem mapSet_eq : mapSet map key value = JsMap.set map key value := by
  have hkeys : map.any (fun e => decide (e.1 = key)) = true ↔ key ∈ map.map Prod.fst := by
    simp [List.any_eq_true]
  unfold mapSet JsMap.set
  by_cases hkey : key ∈ map.map Prod.fst
  · rw [if_pos hkey, if_pos (hkeys.mpr hkey)]
  · rw [if_neg hkey, if_neg (hkeys.not.mpr hkey)]

theorem parseFields_go_flatten :
    parseFields.go map (flatten fields) =
      fields.foldl (fun map e => JsMap.set map e.1 e.2) map := by
  induction fields generalizing map with
  | nil => rfl
  | cons e fields ih =>
    have hcons : flatten (e :: fields) = e.1 :: e.2 :: flatten fields := rfl
    rw [hcons, parseFields.go, mapSet_eq, ih, List.foldl_cons]

/-- Distinct fields are read as they have been written. -/
theorem parseFields_flatten (hnodup : (fields.map Prod.fst).Nodup) :
    parseFields (flatten fields) = fields := by
  rw [parseFields, parseFields_go_flatten]
  exact JsMap.foldl_set hnodup

theorem toList_metaPrefix (key : String) :
    (metaPrefix ++ key).toList = metaPrefix.toList ++ key.toList := String.toList_append

theorem isPrefixOf_metaPrefix (key : String) :
    metaPrefix.toList.isPrefixOf (metaPrefix ++ key).toList = true := by
  rw [toList_metaPrefix]
  exact List.isPrefixOf_iff_prefix.mpr (List.prefix_append _ _)

theorem metaPrefix_injective : Function.Injective (metaPrefix ++ ·) := by
  intro a b hab
  have hlists := congrArg String.toList hab
  rw [toList_metaPrefix, toList_metaPrefix] at hlists
  exact String.toList_injective (List.append_cancel_left hlists)

/-- No core field looks like metadata. -/
theorem isPrefixOf_coreFields {e : String × String} (he : e ∈ coreFields env eventType payload) :
    metaPrefix.toList.isPrefixOf e.1.toList = false := by
  have hmem : e.1 ∈ ["eventId", "eventType", "payload", "publishedAt"] :=
    List.mem_map_of_mem (f := Prod.fst) he
  have hplain : ["eventId", "eventType", "payload", "publishedAt"].all (fun field =>
      !metaPrefix.toList.isPrefixOf field.toList) = true := by decide
  simpa using List.all_eq_true.mp hplain e.1 hmem

theorem nodup_entryFields (hnodup : (metadata.map Prod.fst).Nodup) :
    ((entryFields env eventType payload metadata).map Prod.fst).Nodup := by
  have hmeta : ((metadata.map fun e => (metaPrefix ++ e.1, e.2)).map Prod.fst) =
      (metadata.map Prod.fst).map (metaPrefix ++ ·) := by
    rw [List.map_map, List.map_map]
    rfl
  rw [entryFields, List.map_append, hmeta, List.nodup_append]
  apply And.intro (by simp [coreFields])
  apply And.intro (List.Nodup.map metaPrefix_injective hnodup)
  intro field hfield other hother heq
  obtain ⟨e, he, hcore⟩ := List.mem_map.mp hfield
  obtain ⟨key, -, hkey⟩ := List.mem_map.mp hother
  have hplain := isPrefixOf_coreFields he
  rw [hcore, heq, ← hkey, isPrefixOf_metaPrefix] at hplain
  cases hplain

theorem extractMetadata_entryFields (hnodup : (metadata.map Prod.fst).Nodup) :
    extractMetadata (entryFields env eventType payload metadata) = metadata := by
  have hdrop (key : String) :
      String.ofList ((metaPrefix ++ key).toList.drop metaPrefix.toList.length) = key := by
    rw [toList_metaPrefix, List.drop_left, String.ofList_toList]
  have hcore : (coreFields env eventType payload).foldl (fun metadata e =>
      if metaPrefix.toList.isPrefixOf e.1.toList then
        mapSet metadata (String.ofList (e.1.toList.drop 5)) e.2
      else metadata) [] = [] := by
    apply List.foldlRecOn (motive := fun metadata => metadata = [])
    · rfl
    · intro metadata hnil e he
      rw [if_neg (by simp [isPrefixOf_coreFields he]), hnil]
  unfold extractMetadata
  rw [entryFields, List.foldl_append, hcore, List.foldl_map]
  calc metadata.foldl _ [] = metadata.foldl (fun map e => JsMap.set map e.1 e.2) [] := by
        congr 1
        funext map e
        rw [if_pos (isPrefixOf_metaPrefix e.1), mapSet_eq]
        exact congrArg (JsMap.set map · e.2) (hdrop e.1)
    _ = metadata := JsMap.foldl_set hnodup

theorem stored_publish {connected : Bool} {maxLen : Option ℕ} {args : List String}
    (hpublish : publish connected maxLen env eventType payload metadata = .ok args)
    (entryId : String) :
    stored entryId args = ⟨streamKey eventType, entryId,
      flatten (entryFields env eventType payload metadata)⟩ := by
  unfold publish at hpublish
  split at hpublish
  · cases hpublish
  have hargs := Except.ok.inj hpublish
  subst hargs
  cases maxLen with
  | none => rfl
  | some n => rfl

/-- The reader hands on what has been published: metadata shares no field with the envelope. -/
theorem rawEvent_publish {connected : Bool} {maxLen : Option ℕ} {args : List String}
    {environment : Environment}
    (hpublish : publish connected maxLen env eventType payload metadata = .ok args)
    (hbase64 : environment.fromBase64 (env.toBase64 payload) = payload)
    (hnodup : (metadata.map Prod.fst).Nodup) (entryId : String) (attempt : ℕ) :
    let raw := rawEvent environment (stored entryId args) attempt
    raw.eventId = env.randomUUID ∧ raw.eventType = eventType ∧ raw.payload = payload ∧
      raw.metadata = metadata := by
  have hfields : parseFields (flatten (entryFields env eventType payload metadata)) =
      entryFields env eventType payload metadata := parseFields_flatten (nodup_entryFields hnodup)
  have hpayload : (entryFields env eventType payload metadata).lookup "payload" =
      some (env.toBase64 payload) := rfl
  rw [stored_publish hpublish entryId]
  dsimp only [rawEvent]
  rw [hfields, extractMetadata_entryFields hnodup, hpayload, Option.getD_some, hbase64]
  exact ⟨rfl, rfl, rfl, rfl⟩

end Connectum.Events.Redis
