/-!
# Fixed text of the client

The parts of the generated files that do not depend on the description, as lines. `ofLines` ends
each line with a line feed.
-/

namespace TypedClient.Scaffold

/-- The lines of a text, each with a line feed at its end. -/
def ofLines (lines : List String) : String :=
  String.join (lines.map (· ++ "\n"))

theorem ofLines_append (a b : List String) : ofLines (a ++ b) = ofLines a ++ ofLines b := by
  simp [ofLines]

theorem ofLines_cons (line : String) (lines : List String) :
    ofLines (line :: lines) = line ++ "\n" ++ ofLines lines := by
  simp [ofLines]

/-- The comment at the head of the client file, up to the source. -/
def headerOpening : List String := [
  "/**",
  " * Auto-generated type-safe API client",
  " * Generated from OpenAPI specification"]

/-- The rest of the comment at the head of the client file. -/
def headerRest : List String := [
  " *",
  " * This client provides:",
  " * - Full type safety for all endpoints",
  " * - Type-safe error handling with discriminated unions",
  " * - Request/response interceptors",
  " * - Automatic retry logic with exponential backoff",
  " */",
  ""]

/-- The types of results and interceptors. -/
def resultTypes : List String := [
  "// ============================================================================",
  "// Result types",
  "// ============================================================================",
  "",
  "export type ApiError<TStatus extends number = number> = \x7b",
  "  readonly _tag: 'ApiError';",
  "  readonly status: TStatus;",
  "  readonly message: string;",
  "  readonly data?: unknown;",
  "\x7d;",
  "",
  "export type ApiSuccess<TData> = \x7b",
  "  readonly _tag: 'Success';",
  "  readonly data: TData;",
  "\x7d;",
  "",
  "export type ApiResult<TData, TStatus extends number = number> =",
  "  | ApiSuccess<TData>",
  "  | ApiError<TStatus>;",
  "",
  "// ============================================================================",
  "// Interceptors",
  "// ============================================================================",
  "",
  "export type RequestInterceptor = (request: RequestInit) => RequestInit | Promise<RequestInit>;",
  "",
  "export type ResponseInterceptor<T = unknown> = (response: Response, data: T) => T | Promise<T>;",
  ""]

/-- The constructor of the client class. -/
def constructorLines : List String := [
  "constructor(config?: \x7b",
  "  baseUrl?: string;",
  "  apiKey?: string;",
  "  bearerToken?: string;",
  "  maxRetries?: number;",
  "  retryDelay?: number;",
  "\x7d) \x7b",
  "  if (config?.baseUrl) this.baseUrl = config.baseUrl;",
  "  if (config?.apiKey) this.apiKey = config.apiKey;",
  "  if (config?.bearerToken) this.bearerToken = config.bearerToken;",
  "  if (config?.maxRetries !== undefined) this.maxRetries = config.maxRetries;",
  "  if (config?.retryDelay !== undefined) this.retryDelay = config.retryDelay;",
  "\x7d",
  ""]

/-- The methods that set credentials. -/
def authMethods : List String := [
  "/**",
  " * Set API key for authentication",
  " */",
  "setApiKey(apiKey: string): void \x7b",
  "  this.apiKey = apiKey;",
  "\x7d",
  "",
  "/**",
  " * Set Bearer token for authentication",
  " */",
  "setBearerToken(token: string): void \x7b",
  "  this.bearerToken = token;",
  "\x7d",
  ""]

/-- The methods that add interceptors. -/
def interceptorMethods : List String := [
  "/**",
  " * Add a request interceptor",
  " * @example",
  " * client.addRequestInterceptor((req) => \x7b",
  " *   req.headers = \x7b ...req.headers, 'X-Custom-Header': 'value' \x7d;",
  " *   return req;",
  " * \x7d);",
  " */",
  "addRequestInterceptor(interceptor: RequestInterceptor): void \x7b",
  "  this.requestInterceptors.push(interceptor);",
  "\x7d",
  "",
  "/**",
  " * Add a response interceptor",
  " * @example",
  " * client.addResponseInterceptor((response, data) => \x7b",
  " *   console.log('Response:', data);",
  " *   return data;",
  " * \x7d);",
  " */",
  "addResponseInterceptor<T>(interceptor: ResponseInterceptor<T>): void \x7b",
  "  this.responseInterceptors.push(interceptor as ResponseInterceptor);",
  "\x7d",
  ""]

/-- The method that sets how often and how soon a request is repeated. -/
def retryMethods : List String := [
  "/**",
  " * Set retry configuration",
  " */",
  "setRetryConfig(maxRetries: number, delay: number = 1000): void \x7b",
  "  this.maxRetries = maxRetries;",
  "  this.retryDelay = delay;",
  "\x7d",
  ""]

/-- The method through which every request goes. -/
def internalFetch : List String := [
  "/**",
  " * Internal fetch method with interceptors, auth, and retry logic",
  " */",
  "private async internalFetch<T>(",
  "  url: string,",
  "  options: RequestInit = \x7b\x7d",
  "): Promise<T> \x7b",
  "  // Build headers",
  "  const headers: Record<string, string> = \x7b",
  "    'Content-Type': 'application/json',",
  "    ...(options.headers as Record<string, string> | undefined),",
  "  \x7d;",
  "",
  "  // Add authentication",
  "  if (this.apiKey) \x7b",
  "    headers['X-API-Key'] = this.apiKey;",
  "  \x7d",
  "  if (this.bearerToken) \x7b",
  "    headers['Authorization'] = `Bearer $\x7bthis.bearerToken\x7d`;",
  "  \x7d",
  "",
  "  let request: RequestInit = \x7b ...options, headers \x7d;",
  "",
  "  // Apply request interceptors",
  "  for (const interceptor of this.requestInterceptors) \x7b",
  "    request = await interceptor(request);",
  "  \x7d",
  "",
  "  // Retry logic with exponential backoff",
  "  let lastError: Error | null = null;",
  "  for (let attempt = 0; attempt <= this.maxRetries; attempt++) \x7b",
  "    try \x7b",
  "      const response = await fetch(url, request);",
  "",
  "      if (!response.ok) \x7b",
  "        const errorText = await response.text().catch(() => response.statusText);",
  "        throw Object.assign(" ++
    "new Error(`API error: $\x7bresponse.status\x7d $\x7berrorText\x7d`), \x7b",
  "          status: response.status,",
  "          data: errorText,",
  "        \x7d);",
  "      \x7d",
  "",
  "      const text = await response.text();",
  "      const data = (text ? JSON.parse(text) : undefined) as T;",
  "",
  "      // Apply response interceptors",
  "      let processedData = data;",
  "      for (const interceptor of this.responseInterceptors) \x7b",
  "        processedData = await interceptor(response, processedData) as T;",
  "      \x7d",
  "",
  "      return processedData;",
  "    \x7d catch (error) \x7b",
  "      lastError = error instanceof Error ? error : new Error(String(error));",
  "      if (attempt < this.maxRetries) \x7b",
  "        const delay = this.retryDelay * Math.pow(2, attempt);",
  "        await new Promise(resolve => setTimeout(resolve, delay));",
  "      \x7d",
  "    \x7d",
  "  \x7d",
  "",
  "  throw lastError || new Error('Unknown error');",
  "\x7d",
  ""]

/-- The lines before the request of a method. -/
def requestOpening : List String := [
  "try \x7b"]

/-- The lines after the request of a method. -/
def requestClosing : List String := [
  "  return \x7b _tag: 'Success' as const, data \x7d;",
  "\x7d catch (error) \x7b",
  "  if (error instanceof Error && 'status' in error) \x7b",
  "    return \x7b",
  "      _tag: 'ApiError' as const,",
  "      status: (error as any).status,",
  "      message: error.message,",
  "      data: (error as any).data,",
  "    \x7d;",
  "  \x7d",
  "  return \x7b",
  "    _tag: 'ApiError' as const,",
  "    status: 500,",
  "    message: error instanceof Error ? error.message : 'Unknown error',",
  "  \x7d as ApiError<any>;",
  "\x7d"]

/-- The lines of the comment at the head of the example file after its title. -/
def exampleTopics : List String := [
  " *",
  " * This file demonstrates:",
  " * - Type-safe API calls with autocomplete",
  " * - Error handling with discriminated unions",
  " * - Request/response interceptors",
  " * - Authentication",
  " * - Retry configuration",
  " */",
  ""]

/-- The lines before the client of the example file. -/
def exampleClientComment : List String := [
  "",
  "// Initialize the client"]

/-- The lines from the options of the client to the first call. -/
def exampleSetup : List String := [
  "  // apiKey: 'your-api-key',",
  "  // bearerToken: 'your-token',",
  "  maxRetries: 3,",
  "\x7d);",
  "",
  "// Example: Add request interceptor for logging",
  "client.addRequestInterceptor((request) => \x7b",
  "  console.log('Making request:', request);",
  "  return request;",
  "\x7d);",
  "",
  "// Example: Add response interceptor for data transformation",
  "client.addResponseInterceptor((response, data) => \x7b",
  "  console.log('Received response:', response.status, data);",
  "  return data;",
  "\x7d);",
  "",
  "async function examples() \x7b",
  "  try \x7b"]

/-- The end of the example file. -/
def exampleFooter : List String := [
  "  \x7d catch (error) \x7b",
  "    console.error('Error:', error);",
  "  \x7d",
  "\x7d",
  "",
  "// Run examples",
  "examples().catch(console.error);"]

end TypedClient.Scaffold
