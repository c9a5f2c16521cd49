import Toolsmith.Path

/-!
The sample schema: a service that publishes posts to social networks. It is read when no other
schema is given.
-/

set_option autoImplicit false

namespace Toolsmith.SampleSchema

def block (head : String) (lines : List String) : String :=
  let opening := (head ++ " ").push '{'
  String.join ((opening :: lines.map ("  " ++ ·) ++ [String.singleton '}']).map (· ++ "\n"))

def documented (description definition : String) : String :=
  "\"\"\"\n" ++ description ++ "\n\"\"\"\n" ++ definition

/-- A description on one line. -/
def note (text : String) : String :=
  "\"" ++ text ++ "\""

def leaves : List String :=
  [ documented "An ISO 8601 timestamp, always in UTC." "scalar DateTime\n",
    documented "Social network a profile publishes to." <|
      block "enum Channel"
        ["INSTAGRAM", "FACEBOOK", "LINKEDIN", "TWITTER", "MASTODON"],
    documented "Lifecycle state of a post." <|
      block "enum PostStatus"
        ["DRAFT", "QUEUED", "SENT", "FAILED"],
    block "enum PostSortOrder"
      ["SCHEDULED_AT_ASC", "SCHEDULED_AT_DESC", "CREATED_AT_DESC"],
    block "enum MediaType"
      ["IMAGE", "VIDEO", "GIF"] ]

def outputs : List String :=
  [ block "type Organization"
      ["id: ID!", "name: String!", "plan: String", "profiles: [Profile!]!"],
    block "type ScheduleSlot"
      ["day: String!", "times: [String!]!"],
    block "type Schedule"
      ["timezone: String!", "paused: Boolean!", "slots: [ScheduleSlot!]!"],
    documented "A connected social media account." <|
      block "type Profile"
        ["id: ID!", "name: String!", "channel: Channel!", "avatarUrl: String", "timezone: String",
         "isDisconnected: Boolean!", "organization: Organization", "schedule: Schedule",
         "postsConnection(first: Int, after: String): PostConnection!"],
    block "type Media"
      ["url: String!", "type: MediaType!", "altText: String"],
    block "type DailyStat"
      ["date: DateTime!", "impressions: Int!", "engagements: Int!"],
    block "type PostStats"
      ["likes: Int!", "comments: Int!", "shares: Int!", "impressions: Int!",
       "engagementRate: Float", "dailyBreakdown: [DailyStat!]!"],
    documented "A post that is drafted, queued, or already published." <|
      block "type Post"
        ["id: ID!", "text: String!", "status: PostStatus!", "scheduledAt: DateTime",
         "sentAt: DateTime", "createdAt: DateTime!", "profile: Profile!", "media: [Media!]!",
         "stats: PostStats"],
    block "type PageInfo"
      ["hasNextPage: Boolean!", "endCursor: String"],
    block "type PostEdge"
      ["cursor: String!", "node: Post!"],
    block "type PostConnection"
      ["totalCount: Int!", "pageInfo: PageInfo!", "edges: [PostEdge!]!"],
    block "type PostAnalytics"
      ["postId: ID!", "totals: PostStats!", "dailyBreakdown: [DailyStat!]!"],
    block "type UserError"
      ["field: String", "message: String!"],
    block "type CreatePostPayload"
      ["post: Post", "errors: [UserError!]!"],
    block "type CreatePostsPayload"
      ["posts: [Post!]!", "errors: [UserError!]!"],
    block "type DeletePostPayload"
      ["deletedId: ID", "errors: [UserError!]!"] ]

def inputs : List String :=
  [ block "input MediaInput"
      [note "Publicly reachable URL of the file.", "url: String!", "type: MediaType!",
       "altText: String"],
    block "input CreatePostInput"
      [note "Profile to publish from. Use query-tool_profiles to look up IDs.", "profileId: ID!",
       note "Body of the post. Character limits depend on the channel.", "text: String!",
       note "When to publish. Omit to add to the end of the queue.", "scheduledAt: DateTime",
       "media: [MediaInput!]", note "Save as draft instead of queueing.", "draft: Boolean = false"],
    block "input CreatePostsInput"
      [note "One entry per profile; all posts are created in a single batch.",
       "posts: [CreatePostInput!]!"],
    block "input UpdatePostInput"
      ["id: ID!", "text: String", "scheduledAt: DateTime", "status: PostStatus"],
    block "input ScheduleSlotInput"
      ["day: String!", "times: [String!]!"] ]

def queries : String :=
  block "type Query"
    [note "List the social media profiles connected to the organization.",
      "profiles(",
      note "Only return profiles for this channel.",
      "channel: Channel): [Profile!]!",
      note "Fetch a single profile by ID.",
      "profile(id: ID!): Profile",
      documented "List posts, newest first by default.\nFilter by status and profile." "",
      "posts(",
      "  status: PostStatus",
      "  profileIds: [ID!]",
      note "Maximum number of posts to return.",
      "  limit: Int = 20",
      "  sortBy: PostSortOrder = CREATED_AT_DESC",
      "): [Post!]!",
      note "Engagement analytics for one post.",
      "postAnalytics(postId: ID!, since: DateTime): PostAnalytics",
      "organization: Organization!",
      "apiVersion: String!"]

def mutations : String :=
  block "type Mutation"
    [note "Create a post and add it to the profile's queue.",
      "createPost(input: CreatePostInput!): CreatePostPayload!",
      note "Create posts for several profiles at once.",
      "createPosts(input: CreatePostsInput!): CreatePostsPayload!",
      "updatePost(input: UpdatePostInput!): CreatePostPayload!",
      note "Delete a post. Sent posts are not removed from the network.",
      "deletePost(id: ID!): DeletePostPayload!",
      note "Replace the posting schedule of a profile.",
      "updateSchedule(profileId: ID!, slots: [ScheduleSlotInput!]!, paused: Boolean): Schedule!",
      note "Pause or resume publishing for a profile.",
      "pauseQueue(profileId: ID!, paused: Boolean!): Boolean!"]

/-- Where the schema lies. -/
def path : Path :=
  { root := .relative, parts := ["schema", "schema.graphql"] }

/-- The text of the schema. -/
def source : String :=
  "\n".intercalate (leaves ++ outputs ++ inputs ++ [queries, mutations])

end Toolsmith.SampleSchema
