/-
This file models the data an HTTP request carries through `HttpRequestManager`:
the request, the responses its callback receives, the context that travels from
queue to queue, and the handler that one attempt of the request gets.

A handler reads libcurl through a few calls. What libcurl reports is an input of
the functions below: the bytes of a write callback, and the result, the response
code and the error text of a finished transfer. The headers and the timings of a
response, and the fields of a request that only libcurl reads, decide nothing
here and are left out.
-/

import Kurlyk.RateLimiter.Handles

namespace Kurlyk.Http

open RateLimiter

/-! ### Requests and responses -/

/-- The fields of `HttpRequest` that the manager reads. -/
structure HttpRequest where
  requestId : ℕ := 0
  groupId : ℕ := 0
  streaming : Bool := false
  generalRateLimit : HttpRateLimitHandlePtr := none
  specificRateLimit : HttpRateLimitHandlePtr := none
  generalRateLimitKey : String := ""
  specificRateLimitKey : String := ""
  validStatuses : List ℤ := [200]
  retryAttempts : ℤ := 0
  retryDelayMs : ℤ := 0
deriving DecidableEq

/-- The handles of a request. -/
def HttpRequest.handles (request : HttpRequest) : List LimitId :=
  request.generalRateLimit.toList ++ request.specificRateLimit.toList

/-- The arguments of `allow_request` and `release_request` for a request and its token. -/
def HttpRequest.call (request : HttpRequest) (token : Token) : RequestCall where
  generalLimit := request.generalRateLimit
  specificLimit := request.specificRateLimit
  token := token
  generalKey := request.generalRateLimitKey
  specificKey := request.specificRateLimitKey

/-- `ClientError`. -/
inductive ClientError where
  | cancelledByUser
  | abortedDuringDestruction
  | clientNotInitialized
  | invalidConfiguration
  | notConnected
  | queueLimitExceeded
  | shuttingDown
deriving DecidableEq

/-- A `std::error_code` of one of the categories the manager uses. A code of value zero of the
libcurl category is `make_error_code(CURLE_OK)`. -/
inductive ErrorCode where
  | none
  | curl (code : ℕ)
  | http (status : ℤ)
  | client (error : ClientError)
deriving DecidableEq

/-- `HttpResponse`. -/
structure HttpResponse where
  content : List UInt8 := []
  errorCode : ErrorCode := .none
  errorMessage : String := ""
  statusCode : ℤ := 0
  retryAttempt : ℕ := 0
  ready : Bool := false
  streamChunk : Bool := false
deriving DecidableEq

/-- The response of a request that carries no request object. -/
def badRequestResponse : HttpResponse :=
  { errorCode := .curl 0, statusCode := 400, ready := true }

/-- The response `cleanup_pending_requests` delivers. -/
def cleanupResponse : HttpResponse :=
  { errorCode := .curl 0, statusCode := 499, ready := true }

/-- The response delivered when libcurl gives no handle. -/
def abortedResponse : HttpResponse :=
  { errorCode := .client .abortedDuringDestruction, statusCode := 499, ready := true }

/-- `make_cancelled_response`. -/
def makeCancelledResponse : HttpResponse :=
  { errorCode := .client .cancelledByUser, statusCode := 499, ready := true }

/-! ### Contexts -/

/-- `HttpRequestContext`. A context is named by its in-flight token, which `submit_request`
draws from a counter, so the token is not a field. The response callback is either absent or
present. `on_complete` is the `release_request` call it captures, and `on_group_complete` the
group it captures. -/
structure HttpRequestContext where
  request : Option HttpRequest := none
  callback : Bool := false
  retryAttempt : ℕ := 0
  startTime : TimePoint := 0
  onComplete : Option RequestCall := none
  onGroupComplete : Option ℕ := none
  completeCalled : Bool := false
deriving DecidableEq

/-- `context->request ? context->request->group_id : 0`. -/
def HttpRequestContext.groupId (context : HttpRequestContext) : ℕ :=
  (context.request.map HttpRequest.groupId).getD 0

/-- The handles a context keeps alive. -/
def HttpRequestContext.handles (context : HttpRequestContext) : List LimitId :=
  (context.request.map HttpRequest.handles).getD []

/-- The request's retry budget. -/
def HttpRequestContext.retryAttempts (context : HttpRequestContext) : ℤ :=
  (context.request.map HttpRequest.retryAttempts).getD 0

/-- The context `submit_request` makes of its arguments. -/
def HttpRequestContext.admitted (request : Option HttpRequest) (callback : Bool) :
    HttpRequestContext where
  request := request
  callback := callback
  onGroupComplete :=
    let group := (request.map HttpRequest.groupId).getD 0
    if group ≠ 0 then some group else none

/-! ### Handlers -/

/-- `HttpRequestHandler`: one attempt of a request. `transferring` is libcurl's side of the
easy handle: it was added to the multi handle and its transfer has not been reported done. A
handler makes its last callback only when its transfer is over. -/
structure HttpRequestHandler where
  requestContext : Option Token
  response : Option HttpResponse := some {}
  callbackCalled : Bool := false
  hasStreamChunk : Bool := false
  done : Bool := false
  transferring : Bool
  ended : callbackCalled = true → transferring = false := by simp
deriving DecidableEq

/-- The handler after `handle_curl_message` has given its response away and its easy handle was
removed; `requestContext` is the context it keeps. -/
def HttpRequestHandler.answered (handler : HttpRequestHandler) (requestContext : Option Token) :
    HttpRequestHandler :=
  { handler with
    requestContext
    response := none
    callbackCalled := true
    done := true
    transferring := false
    ended := fun _ => rfl }

/-- The handler after its easy handle was removed. -/
def HttpRequestHandler.removed (handler : HttpRequestHandler) : HttpRequestHandler :=
  { handler with transferring := false, ended := fun _ => rfl }

/-- `CURLE_OK`. -/
def curleOk : ℕ := 0

/-- `CURLE_OPERATION_TIMEDOUT`. -/
def curleOperationTimedout : ℕ := 28

/-- What libcurl reports of a finished transfer: `message->data.result`, the response code and
the text in the error buffer. -/
structure CurlMessage where
  result : ℕ
  responseCode : ℤ
  errorText : String := ""
deriving DecidableEq

/-- The status code `handle_curl_message` stores. -/
def CurlMessage.statusCode (message : CurlMessage) : ℤ :=
  let reported := if message.result = curleOperationTimedout then 499 else message.responseCode
  if reported = 0 ∧ message.result ≠ curleOk then 451 else reported

/-- The error code `handle_curl_message` stores. -/
def CurlMessage.errorCode (message : CurlMessage) : ErrorCode :=
  if message.result ≠ curleOk then .curl message.result
  else if message.statusCode ≥ 400 then .http message.statusCode
  else .none

/-- The response `handle_curl_message` fills in before it decides whether it is final. -/
def HttpResponse.finished (response : HttpResponse) (message : CurlMessage) (attempt : ℕ) :
    HttpResponse :=
  { response with
    errorMessage := message.errorText
    statusCode := message.statusCode
    errorCode := message.errorCode
    retryAttempt := attempt }

/-- `should_retry`, with the retry attempt already counted. -/
def shouldRetry (request : HttpRequest) (message : CurlMessage) (attempt : ℕ)
    (hasStreamChunk : Bool) : Bool :=
  decide (request.retryAttempts ≠ 0) &&
    (decide (message.result ≠ curleOk) || !request.validStatuses.contains message.statusCode) &&
    decide ((attempt : ℤ) < request.retryAttempts) && !hasStreamChunk

/-- The first half of `write_response_body`. -/
def HttpRequestHandler.appendContent (handler : HttpRequestHandler) (data : List UInt8) :
    HttpRequestHandler :=
  { handler with
    response := handler.response.map fun response =>
      { response with content := response.content ++ data } }

/-- `m_has_stream_chunk = true`. -/
def HttpRequestHandler.streamed (handler : HttpRequestHandler) : HttpRequestHandler :=
  { handler with hasStreamChunk := true }

/-- The chunk `emit_stream_chunk` builds, if it emits one. -/
def streamChunk (context : HttpRequestContext) (data : List UInt8) (status : ℤ) :
    Option HttpResponse :=
  match context.request with
  | none => none
  | some request =>
    if data ≠ [] ∧ request.streaming = true ∧ context.callback = true then
      some { content := data, statusCode := status, retryAttempt := context.retryAttempt + 1,
             streamChunk := true }
    else none

/-- The final response of `~HttpRequestHandler` and of `cancel`, with the error they report. -/
def HttpResponse.closed (response : HttpResponse) (error : ClientError) : HttpResponse :=
  { response with errorCode := .client error, statusCode := 499, ready := true }

/-- The context a handler still has to answer, with the response it would send: what the guard
of `~HttpRequestHandler` tests. -/
def HttpRequestHandler.unanswered (handler : HttpRequestHandler) : Option (Token × HttpResponse) :=
  if handler.callbackCalled then none
  else
    match handler.requestContext, handler.response with
    | some token, some response => some (token, response)
    | _, _ => none

end Kurlyk.Http
