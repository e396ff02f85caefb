import HttpPipeline.Text.Ascii
import HttpPipeline.Text.Blank
import HttpPipeline.Text.Numeral

/-! # Log classifications

  The closed set of event categories that can be logged. Each has a dotted name, under which
  it is selected, and a code, which is its facility's number in the high 16 bits and its
  ordinal within the facility in the low ones.
-/

namespace HttpPipeline.Log

/-! ## §1. Facilities -/

/-- The part of the software that a category belongs to. -/
inductive Facility where
  /-- The exchange of requests and responses. -/
  | coreHttp
  /-- The message queue client. -/
  | iotMqtt
  /-- The device client. -/
  | iot
  /-- The hierarchical state machine. -/
  | hfsm
  deriving DecidableEq, Repr

/-- The number of a facility within codes. -/
def Facility.number : Facility → Nat
  | .coreHttp => 1
  | .iotMqtt => 2
  | .iot => 3
  | .hfsm => 4

/-- The name that a facility is listed under. -/
def Facility.label : Facility → String
  | .coreHttp => "CoreHttp"
  | .iotMqtt => "IotMqtt"
  | .iot => "Iot"
  | .hfsm => "Hfsm"

/-! ## §2. Classifications -/

/-- A category of events that can be logged. -/
inductive Classification where
  /-- A request is about to be sent. -/
  | httpRequest
  /-- A response has arrived. -/
  | httpResponse
  /-- A request will be sent again after a wait. -/
  | httpRetry
  /-- A queued message's topic has arrived. -/
  | mqttReceivedTopic
  /-- A queued message's payload has arrived. -/
  | mqttReceivedPayload
  /-- A device operation will be tried again. -/
  | iotRetry
  /-- A device signed its access token. -/
  | iotSasToken
  /-- An event of the device's operating system. -/
  | iotAzureRtos
  /-- A state was entered. -/
  | hfsmEntry
  /-- A state was left. -/
  | hfsmExit
  deriving DecidableEq, Repr

namespace Classification

/-- Every classification, in the order of the codes. -/
def all : List Classification :=
  [.httpRequest, .httpResponse, .httpRetry, .mqttReceivedTopic, .mqttReceivedPayload,
   .iotRetry, .iotSasToken, .iotAzureRtos, .hfsmEntry, .hfsmExit]

/-- The facility that a classification belongs to. -/
def facility : Classification → Facility
  | .httpRequest | .httpResponse | .httpRetry => .coreHttp
  | .mqttReceivedTopic | .mqttReceivedPayload => .iotMqtt
  | .iotRetry | .iotSasToken | .iotAzureRtos => .iot
  | .hfsmEntry | .hfsmExit => .hfsm

/-- The place of a classification within its facility, from one on. -/
def ordinal : Classification → Nat
  | .httpRequest | .mqttReceivedTopic | .iotRetry | .hfsmEntry => 1
  | .httpResponse | .mqttReceivedPayload | .iotSasToken | .hfsmExit => 2
  | .httpRetry | .iotAzureRtos => 3

/-- The code of a classification. -/
def code (c : Classification) : Int :=
  c.facility.number * 0x10000 + c.ordinal

/-- The dotted name that a classification is selected by. -/
def name : Classification → String
  | .httpRequest => "http.request"
  | .httpResponse => "http.response"
  | .httpRetry => "http.retry"
  | .mqttReceivedTopic => "mqtt.received_topic"
  | .mqttReceivedPayload => "mqtt.received_payload"
  | .iotRetry => "iot.retry"
  | .iotSasToken => "iot.sas_token"
  | .iotAzureRtos => "iot.azure_rtos"
  | .hfsmEntry => "hfsm.entry"
  | .hfsmExit => "hfsm.exit"

/-- The name that a classification has in the description of a filter. -/
def label : Classification → String
  | .httpRequest => "HttpRequest"
  | .httpResponse => "HttpResponse"
  | .httpRetry => "HttpRetry"
  | .mqttReceivedTopic => "MqttReceivedTopic"
  | .mqttReceivedPayload => "MqttReceivedPayload"
  | .iotRetry => "IotRetry"
  | .iotSasToken => "IotSasToken"
  | .iotAzureRtos => "IotAzureRtos"
  | .hfsmEntry => "HfsmEntry"
  | .hfsmExit => "HfsmExit"

theorem mem_all (c : Classification) : c ∈ all := by
  cases c <;> simp [all]

/-! ## §3. Reading codes and names -/

/-- The code that ends a list of codes. No classification has it. -/
def endOfList : Int := 0

/-- The classification that has a code. -/
def ofCode? (n : Int) : Option Classification :=
  all.find? fun c => c.code == n

theorem code_ne_endOfList (c : Classification) : c.code ≠ endOfList := by
  cases c <;> decide

@[simp] theorem ofCode?_code (c : Classification) : ofCode? c.code = some c := by
  cases c <;> decide

theorem code_of_ofCode? {n : Int} {c : Classification} (h : ofCode? n = some c) :
    c.code = n := by
  simpa using List.find?_some h

/-- The classification that a dotted name stands for, in any ASCII case. -/
def ofName? (s : String) : Option Classification :=
  all.find? fun c => Text.sameIgnoringCase c.name s

end Classification

/-- A name or a code that no classification has. -/
structure UnknownClassification where
  /-- The name as it was written, or the code in decimal. -/
  text : String
  deriving DecidableEq, Repr

/-- The wording of the failure. -/
def UnknownClassification.message (e : UnknownClassification) : String :=
  "unknown log classification: " ++ e.text

namespace Classification

/-- Reads a dotted name, which may have blanks around it. -/
def parse (s : String) : Except UnknownClassification Classification :=
  match ofName? (Text.trim s) with
  | some c => .ok c
  | none => .error ⟨Text.trim s⟩

/-- Reads a code. -/
def ofCode (n : Int) : Except UnknownClassification Classification :=
  match ofCode? n with
  | some c => .ok c
  | none => .error ⟨toString n⟩

end Classification

end HttpPipeline.Log
